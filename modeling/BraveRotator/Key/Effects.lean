import BraveRotator.Key.Digest

namespace BraveRotator

def Outcome.learned? : Outcome → Option Nat
  | .response _ (some rl) _ => (rl.limit.second.filter (0 < ·)).map (min · maxLearnedRps)
  | _ => none

theorem Outcome.learned?_bounds {o : Outcome} {l : Nat} (learned : o.learned? = some l) :
    1 ≤ l ∧ l ≤ maxLearnedRps := by
  unfold learned? at learned
  split at learned
  · obtain ⟨l', kept, rfl⟩ := Option.map_eq_some_iff.mp learned
    have positive : 0 < l' := by simpa using (Option.filter_eq_some_iff.mp kept).2
    exact ⟨le_min positive (by decide), min_le_right _ _⟩
  · cases learned

namespace KeyState

/-- The part of a key that recording an outcome never touches. -/
structure Fixed where
  token : String
  label : String
  sends : List Instant
  lastUsed : Option Instant
  requests : Nat
  monthlyCapOverride : Option Nat

def fixed (k : KeyState) : Fixed :=
  { token := k.token, label := k.label, sends := k.sends, lastUsed := k.lastUsed
    requests := k.stats.requests, monthlyCapOverride := k.monthlyCapOverride }

/-- The strikes after an outcome that starts the park given. -/
def strikesAfter (k : KeyState) : Option Park → Nat
  | some (.disable _) => k.nextStrike
  | _ => k.disableStrikes

structure Effect (k : KeyState) (now : Instant) (o : Outcome) (k' : KeyState) : Prop where
  fixed : k'.fixed = k.fixed
  secLimit : k'.secLimit = o.learned?.getD k.secLimit
  holdUntil : k'.holdUntil = (o.slowDown?.map (now + ·)).or k.holdUntil
  ok : k'.stats.ok = k.stats.ok + if o.isSuccess then 1 else 0
  strikes : k'.disableStrikes = if o.isSuccess then 0 else k.strikesAfter (k.parkFor o)

section Branches

variable (k : KeyState) (now : Instant)

theorem fail_fields (what : String) :
    ∃ health consecutiveFailures consecutive429 disabledSince,
      k.fail now what = { k with
        health, consecutiveFailures, consecutive429, disabledSince
        disableStrikes := k.strikesAfter k.failurePark } := by
  unfold fail failurePark
  dsimp only
  split
  · exact ⟨_, _, _, _, rfl⟩
  · exact ⟨_, _, _, _, rfl⟩

theorem recordSuccess_fields (rl : Option RateLimitInfo) :
    ∃ health monthRemaining monthResetAt disabledSince,
      k.recordSuccess now rl = { k with
        stats := { k.stats with ok := k.stats.ok + 1, lastError := none }
        lastOk := some now, consecutiveFailures := 0, consecutive429 := 0
        disableStrikes := 0, disabledSince, health, monthRemaining, monthResetAt } := by
  obtain ⟨_, noted⟩ := k.noteSuccess_fields now
  unfold recordSuccess
  dsimp only
  rw [noted]
  split
  · exact ⟨_, _, _, _, rfl⟩
  · split
    · exact ⟨_, _, _, _, rfl⟩
    · exact ⟨_, _, _, _, rfl⟩

theorem recordTooMany_fields (rl : Option RateLimitInfo) (bodySnippet : Option String)
    (detail : String) :
    ∃ stats health monthRemaining monthResetAt consecutiveFailures consecutive429 disabledSince,
      k.recordTooMany now rl detail = { k with
        stats, health, monthRemaining, monthResetAt, consecutiveFailures, consecutive429
        disabledSince
        holdUntil := ((Outcome.response 429 rl bodySnippet).slowDown?.map (now + ·)).or k.holdUntil
        disableStrikes := k.strikesAfter (k.tooManyPark rl) } ∧
      stats.ok = k.stats.ok ∧ stats.requests = k.stats.requests := by
  unfold recordTooMany tooManyPark Outcome.slowDown?
  cases rl with
  | some r =>
    dsimp only
    split
    · exact ⟨_, _, _, _, _, _, _, rfl, rfl, rfl⟩
    · exact ⟨_, _, _, _, _, _, _, rfl, rfl, rfl⟩
  | none =>
    dsimp only
    split
    · exact ⟨_, _, _, _, _, _, _, rfl, rfl, rfl⟩
    · exact ⟨_, _, _, _, _, _, _, rfl, rfl, rfl⟩

theorem learnLimits_secLimit (rl : RateLimitInfo) :
    (k.learnLimits now rl).secLimit =
      ((rl.limit.second.filter (0 < ·)).map (min · maxLearnedRps)).getD k.secLimit :=
  congrArg KeyState.secLimit (k.learnLimits_eq now rl)

theorem noteResponse_effect (status : Nat) (rl : Option RateLimitInfo)
    (bodySnippet : Option String) :
    (k.noteResponse now status rl).secLimit =
        (Outcome.response status rl bodySnippet).learned?.getD k.secLimit ∧
      (k.noteResponse now status rl).fixed = k.fixed ∧
      (k.noteResponse now status rl).holdUntil = k.holdUntil ∧
      (k.noteResponse now status rl).stats.ok = k.stats.ok ∧
      (k.noteResponse now status rl).disableStrikes = k.disableStrikes := by
  refine ⟨?_, ?_⟩
  · cases rl with
    | none => rfl
    | some rl => exact learnLimits_secLimit _ now rl
  · obtain ⟨_, _, _, _, _, noted⟩ := k.noteResponse_fields now status rl
    rw [noted]
    exact ⟨rfl, rfl, rfl, rfl⟩

end Branches

section Compose

variable {k k' : KeyState} {now : Instant} {status : Nat} {rl : Option RateLimitInfo}
  {bodySnippet : Option String}

theorem Effect.of_noted (fixed : k'.fixed = (k.noteResponse now status rl).fixed)
    (secLimit : k'.secLimit = (k.noteResponse now status rl).secLimit)
    (holdUntil : k'.holdUntil =
      ((Outcome.response status rl bodySnippet).slowDown?.map (now + ·)).or
        (k.noteResponse now status rl).holdUntil)
    (ok : k'.stats.ok = (k.noteResponse now status rl).stats.ok +
      if (Outcome.response status rl bodySnippet).isSuccess then 1 else 0)
    (strikes : k'.disableStrikes =
      if (Outcome.response status rl bodySnippet).isSuccess then 0
      else (k.noteResponse now status rl).strikesAfter (k.parkFor (.response status rl bodySnippet))) :
    k.Effect now (.response status rl bodySnippet) k' := by
  obtain ⟨limit, kept, held, successes, struck⟩ := k.noteResponse_effect now status rl bodySnippet
  refine ⟨fixed.trans kept, secLimit.trans limit, by rw [holdUntil, held], by rw [ok, successes], ?_⟩
  have same : (k.noteResponse now status rl).strikesAfter = k.strikesAfter := by
    funext park
    unfold strikesAfter nextStrike
    rw [struck]
  rw [strikes, same]

theorem isSuccess_eq_false (range : ¬ (200 ≤ status ∧ status ≤ 299)) :
    (Outcome.response status rl bodySnippet).isSuccess = false := decide_eq_false range

theorem slowDown?_eq_none (other : status ≠ 429) :
    (Outcome.response status rl bodySnippet).slowDown? = none := if_neg other

theorem Effect.of_failed (failed : ¬ (200 ≤ status ∧ status ≤ 299)) (single : status ≠ 429)
    (fixed : k'.fixed = (k.noteResponse now status rl).fixed)
    (secLimit : k'.secLimit = (k.noteResponse now status rl).secLimit)
    (holdUntil : k'.holdUntil = (k.noteResponse now status rl).holdUntil)
    (ok : k'.stats.ok = (k.noteResponse now status rl).stats.ok)
    (strikes : k'.disableStrikes =
      (k.noteResponse now status rl).strikesAfter (k.parkFor (.response status rl bodySnippet))) :
    k.Effect now (.response status rl bodySnippet) k' := by
  refine .of_noted fixed secLimit ?_ ?_ ?_
  · rw [slowDown?_eq_none single]
    exact holdUntil
  · rw [isSuccess_eq_false failed]
    exact ok
  · rw [isSuccess_eq_false failed]
    exact strikes

end Compose

theorem digest_effect (k : KeyState) (now : Instant) (o : Outcome) :
    k.Effect now o (k.digest now o).1 := by
  have cases := k.digest_cases now o
  generalize (k.digest now o).1 = k' at cases
  cases cases with
  | transport err =>
    unfold recordTransport
    obtain ⟨_, _, _, _, failed⟩ := fail_fields { k with
      stats := { k.stats with
        transportErrors := k.stats.transportErrors + 1, lastStatus := none
        lastError := some err } } now s!"transport error: {err}"
    dsimp only
    rw [failed]
    exact ⟨rfl, rfl, rfl, rfl, rfl⟩
  | success status rl bodySnippet range =>
    obtain ⟨_, _, _, _, recorded⟩ := (k.noteResponse now status rl).recordSuccess_fields now rl
    have success : (Outcome.response status rl bodySnippet).isSuccess = true := decide_eq_true range
    rw [recorded]
    exact .of_noted rfl rfl (by rw [slowDown?_eq_none (by omega)]; rfl) (by rw [success]; rfl)
      (by rw [success]; rfl)
  | tooMany rl bodySnippet detail =>
    obtain ⟨_, _, _, _, _, _, _, recorded, ok, requests⟩ :=
      (k.noteResponse now 429 rl).recordTooMany_fields now rl bodySnippet detail
    rw [recorded]
    refine .of_noted ?_ rfl rfl ok ?_
    · simp only [KeyState.fixed, requests]
    · rw [← k.noteResponse_parkFor now 429 rl]
      rfl
  | rejected status rl bodySnippet detail auth =>
    refine .of_failed (by omega) (by omega) rfl rfl rfl rfl ?_
    rw [parkFor_rejected _ _ _ auth]
    rfl
  | clientError status rl bodySnippet detail range rest =>
    refine .of_failed (by omega) (by omega) rfl rfl rfl rfl ?_
    rw [parkFor_none _ _ _ (by omega) rest (by omega)]
    rfl
  | serverError status rl bodySnippet detail range =>
    unfold recordServerError
    obtain ⟨_, _, _, _, failed⟩ := fail_fields { k.noteResponse now status rl with
      stats := { (k.noteResponse now status rl).stats with
        server5xx := (k.noteResponse now status rl).stats.server5xx + 1
        lastError := some s!"HTTP {status}{detail}" } } now s!"HTTP {status}{detail}"
    dsimp only
    rw [failed]
    refine .of_failed (by omega) (by omega) rfl rfl rfl rfl ?_
    rw [parkFor_serverError _ _ _ range, ← k.noteResponse_failurePark now status rl]
    rfl
  | other status rl bodySnippet rest =>
    refine .of_failed (by omega) (by omega) rfl rfl rfl rfl ?_
    rw [parkFor_none _ _ _ (by omega) (by omega) (by omega)]
    rfl

end KeyState

end BraveRotator
