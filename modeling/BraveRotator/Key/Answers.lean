import BraveRotator.Key.Ranges

namespace BraveRotator

def Outcome.monthReset? : Outcome → Option Duration
  | .response _ rl _ => rl.bind (·.monthReset)
  | .transport _ => none

def Stats.counter? (s : Stats) : Outcome → Option Nat
  | .transport _ => some s.transportErrors
  | .response status _ _ =>
    if 200 ≤ status ∧ status ≤ 299 then some s.ok
    else if status = 429 then some s.upstream429
    else if 400 ≤ status ∧ status ≤ 499 then some s.client4xx
    else if 500 ≤ status ∧ status ≤ 599 then some s.server5xx
    else none

namespace KeyState

/-- What the outcome and the key have to bring along. -/
structure Takes (host : Host) (k : KeyState) (now : Instant) (o : Outcome) : Prop where
  reset : ∀ r, o.monthReset? = some r → Duration.asSecs (now + r) ≤ i64Max
  parked : ∀ length, k.parkFor o = some (.exhaust length) → (∀ u, k.health ≠ .exhausted u) →
    host.Prints (now + length)
  counted : ∀ n, k.stats.counter? o = some n → n < u64Max
  tooMany : ∀ rl bodySnippet, o = .response 429 rl bodySnippet → k.consecutive429 < u32Max

/-- Where the key is parked for a month, the end is an instant, and one that can be logged. -/
def ParkFits (host : Host) (k : KeyState) (now : Instant) (park : Option Park) : Prop :=
  ∀ length, park = some (.exhaust length) →
    (Op.add (now + length)).Fits host ∧
      ((∀ u, k.health ≠ .exhausted u) → host.Prints (now + length))

def BranchTakes (host : Host) (k : KeyState) (now : Instant) (o : Outcome) : Prop :=
  k.ParkFits host now (k.parkFor o) ∧ (∀ n, k.stats.counter? o = some n → n < u64Max) ∧
    ∀ rl bodySnippet, o = .response 429 rl bodySnippet → k.consecutive429 < u32Max

section Operations

variable {host : Host} {window : Duration} {k : KeyState} {now : Instant}

theorem disableOps_fit (calendar : host.Calendar window now) (base : Duration) {ceiling : Duration}
    (le : ceiling ≤ authBackoffMax) : ∀ op ∈ k.disableOps now base ceiling, op.Fits host := by
  have soon : ∀ dur, now + min dur ceiling ≤ now + authBackoffMax :=
    fun dur => Nat.add_le_add_left ((min_le_right dur ceiling).trans le) now
  intro op member
  unfold disableOps at member
  simp only [List.mem_cons, List.not_mem_nil, or_false] at member
  rcases member with rfl | rfl
  · exact add_of_le calendar.cooldown ((soon _).trans (Nat.le_add_right _ _))
  · exact prints_of_le calendar.cooldown (soon _)

theorem failOps_fit (calendar : host.Calendar window now) (low : k.consecutiveFailures < failThreshold) :
    ∀ op ∈ k.failOps now, op.Fits host := by
  intro op member
  unfold failOps at member
  rcases List.mem_cons.mp member with rfl | member
  · show k.consecutiveFailures + 1 ≤ u32Max
    exact (Nat.succ_le_of_lt low).trans (by decide)
  · split at member
    · exact disableOps_fit calendar _ (by decide) op member
    · cases member

theorem exhaustOps_fit_iff (resetIn : Option Duration) :
    (∀ op ∈ k.exhaustOps now resetIn, op.Fits host) ↔
      k.ParkFits host now (some (.exhaust (resetIn.getD exhaustedFallback))) := by
  unfold exhaustOps ParkFits
  cases k.health with
  | ok => simp [Op.Fits]
  | disabled u reason => simp [Op.Fits]
  | exhausted u => simp [Op.Fits]

theorem parkFits_none : k.ParkFits host now none := fun _ parks => by cases parks

theorem parkFits_disable (length : Duration) : k.ParkFits host now (some (.disable length)) :=
  fun _ parks => by cases parks

theorem parkFits_failure : k.ParkFits host now k.failurePark :=
  fun length parks => absurd parks (failurePark_ne_exhaust length)

theorem sum64_fits_iff {n : Nat} : (Op.sum64 (n + 1)).Fits host ↔ n < u64Max := Nat.succ_le_iff

theorem recordSuccessOps_fit_iff (rl : Option RateLimitInfo) :
    (∀ op ∈ k.recordSuccessOps now rl, op.Fits host) ↔
      k.ParkFits host now (k.successPark rl) ∧ k.stats.ok < u64Max := by
  obtain ⟨_, noted⟩ := k.noteSuccess_fields now
  have cap : (k.noteSuccess now).overrideCapExhausted =
      k.monthlyCapOverride.any (· ≤ k.stats.ok + 1) := by
    rw [overrideCapExhausted_eq, noted]
  have health : ∀ park, (k.noteSuccess now).ParkFits host now park = k.ParkFits host now park := by
    intro park
    rw [noted]
    rfl
  unfold recordSuccessOps successPark
  dsimp only
  rw [List.forall_mem_cons, sum64_fits_iff, and_comm, cap]
  refine and_congr_left fun _ => ?_
  split
  · rw [exhaustOps_fit_iff, health]
  · split
    · rw [exhaustOps_fit_iff, health]
      rfl
    · simp [parkFits_none]

theorem recordTooManyOps_fit_iff (calendar : host.Calendar window now) (rl : Option RateLimitInfo) :
    (∀ op ∈ k.recordTooManyOps now rl, op.Fits host) ↔
      k.ParkFits host now (k.tooManyPark rl) ∧ k.stats.upstream429 < u64Max ∧
        k.consecutive429 < u32Max := by
  have soon : ∀ dur, dur ≤ authBackoffMax → (Op.add (now + dur)).Fits host := fun dur le =>
    add_of_le calendar.cooldown ((Nat.add_le_add_left le now).trans (Nat.le_add_right _ _))
  have count : (Op.sum32 (k.consecutive429 + 1)).Fits host ↔ k.consecutive429 < u32Max :=
    Nat.succ_le_iff
  unfold recordTooManyOps tooManyPark
  rw [List.forall_mem_cons, List.forall_mem_cons, sum64_fits_iff, count, ← and_assoc, and_comm]
  refine and_congr_left fun _ => ?_
  cases rl with
  | some r =>
    dsimp only
    split
    · exact exhaustOps_fit_iff _
    · simp [parkFits_none, soon _ (r.secondWait_le.trans (by decide))]
  | none =>
    dsimp only
    rw [List.forall_mem_cons]
    split
    · simp only [parkFits_disable, soon _ (by decide : 2 * braveWindow ≤ authBackoffMax), true_and,
        iff_true]
      exact disableOps_fit calendar _ (by decide)
    · simp [parkFits_none, soon _ (by decide : 2 * braveWindow ≤ authBackoffMax)]

theorem branchTakes_iff {status n : Nat} {rl : Option RateLimitInfo} {bodySnippet : Option String}
    (other : status ≠ 429) (counter : k.stats.counter? (.response status rl bodySnippet) = some n) :
    k.BranchTakes host now (.response status rl bodySnippet) ↔
      k.ParkFits host now (k.parkFor (.response status rl bodySnippet)) ∧ n < u64Max := by
  unfold BranchTakes
  refine and_congr_right fun _ => ?_
  rw [counter]
  constructor
  · intro takes
    exact takes.1 n rfl
  · intro low
    constructor
    · intro m same
      cases same
      exact low
    · intro _ _ same
      cases same
      exact absurd rfl other

theorem noteResponse_branchTakes (status : Nat) (rl : Option RateLimitInfo)
    (bodySnippet : Option String) :
    (k.noteResponse now status rl).BranchTakes host now (.response status rl bodySnippet) ↔
      k.BranchTakes host now (.response status rl bodySnippet) := by
  obtain ⟨_, _, _, _, _, noted⟩ := k.noteResponse_fields now status rl
  rw [noted]
  exact Iff.rfl

theorem noteResponseOps_fit_iff (status : Nat) (rl : Option RateLimitInfo)
    (bodySnippet : Option String) :
    (∀ op ∈ noteResponseOps now rl, op.Fits host) ↔
      ∀ r, (Outcome.response status rl bodySnippet).monthReset? = some r →
        Duration.asSecs (now + r) ≤ i64Max := by
  cases rl with
  | none => simp [noteResponseOps, Outcome.monthReset?]
  | some rl => simp [noteResponseOps, learnLimitsOps, Outcome.monthReset?, Op.Fits]

theorem counter?_client (s : Stats) {status : Nat} (rl : Option RateLimitInfo)
    (bodySnippet : Option String) (single : status ≠ 429) (client : 400 ≤ status ∧ status ≤ 499) :
    s.counter? (.response status rl bodySnippet) = some s.client4xx := by
  have success : ¬ (200 ≤ status ∧ status ≤ 299) := by omega
  simp only [Stats.counter?, if_neg success, if_neg single, if_pos client]

theorem counter?_server (s : Stats) {status : Nat} (rl : Option RateLimitInfo)
    (bodySnippet : Option String) (server : 500 ≤ status ∧ status ≤ 599) :
    s.counter? (.response status rl bodySnippet) = some s.server5xx := by
  have success : ¬ (200 ≤ status ∧ status ≤ 299) := by omega
  have single : status ≠ 429 := by omega
  have client : ¬ (400 ≤ status ∧ status ≤ 499) := by omega
  simp only [Stats.counter?, if_neg success, if_neg single, if_neg client, if_pos server]

theorem branchTakes_other {status : Nat} (rl : Option RateLimitInfo) (bodySnippet : Option String)
    (success : ¬ (200 ≤ status ∧ status ≤ 299)) (client : ¬ (400 ≤ status ∧ status ≤ 499))
    (server : ¬ (500 ≤ status ∧ status ≤ 599)) :
    k.BranchTakes host now (.response status rl bodySnippet) := by
  have single : status ≠ 429 := by omega
  have counter : k.stats.counter? (.response status rl bodySnippet) = none := by
    simp only [Stats.counter?, if_neg success, if_neg single, if_neg client, if_neg server]
  refine ⟨?_, ?_, ?_⟩
  · rw [parkFor_none _ _ _ success (by omega) server]
    exact parkFits_none
  · intro n same
    cases counter.symm.trans same
  · intro _ _ same
    cases same
    exact absurd rfl single

theorem branchOps_fit_iff (calendar : host.Calendar window now)
    (low : k.consecutiveFailures < failThreshold) (status : Nat) (rl : Option RateLimitInfo)
    (bodySnippet : Option String) :
    (∀ op ∈
      (if 200 ≤ status ∧ status ≤ 299 then k.recordSuccessOps now rl
      else if status = 429 then k.recordTooManyOps now rl
      else if status = 401 ∨ status = 403 then k.recordRejectedOps now
      else if 400 ≤ status ∧ status ≤ 499 then k.recordClientErrorOps
      else if 500 ≤ status ∧ status ≤ 599 then k.recordServerErrorOps now
      else []), op.Fits host) ↔
      k.BranchTakes host now (.response status rl bodySnippet) := by
  split
  · rename_i success
    have counter : k.stats.counter? (.response status rl bodySnippet) = some k.stats.ok :=
      if_pos success
    rw [branchTakes_iff (by omega) counter, parkFor_success _ _ _ success]
    exact recordSuccessOps_fit_iff rl
  rename_i success
  split
  · rename_i tooMany
    subst tooMany
    have counter : k.stats.counter? (.response 429 rl bodySnippet) = some k.stats.upstream429 := rfl
    rw [recordTooManyOps_fit_iff calendar]
    refine and_congr_right fun _ => ?_
    rw [counter]
    constructor
    · intro low
      exact ⟨fun n same => Option.some.inj same ▸ low.1, fun _ _ _ => low.2⟩
    · intro takes
      exact ⟨takes.1 _ rfl, takes.2 _ _ rfl⟩
  rename_i single
  split
  · rename_i auth
    have counter := counter?_client k.stats rl bodySnippet single (by omega)
    rw [branchTakes_iff single counter, parkFor_rejected _ _ _ auth]
    rw [recordRejectedOps, List.forall_mem_cons, sum64_fits_iff, and_comm]
    refine and_congr_left fun _ => ?_
    exact iff_of_true (disableOps_fit calendar _ le_rfl) (parkFits_disable _)
  rename_i auth
  split
  · rename_i client
    have counter := counter?_client k.stats rl bodySnippet single client
    rw [branchTakes_iff single counter, parkFor_none _ _ _ success (by omega) (by omega)]
    simp [recordClientErrorOps, sum64_fits_iff, parkFits_none]
  rename_i client
  split
  · rename_i server
    have counter := counter?_server k.stats rl bodySnippet server
    rw [branchTakes_iff single counter, parkFor_serverError _ _ _ server]
    rw [recordServerErrorOps, List.forall_mem_cons, sum64_fits_iff, and_comm]
    refine and_congr_left fun _ => ?_
    exact iff_of_true (failOps_fit calendar low) parkFits_failure
  · rename_i server
    exact iff_of_true (by simp) (branchTakes_other rl bodySnippet success client server)

theorem exhaust_getD {o : Outcome} {length : Duration} (parks : k.parkFor o = some (.exhaust length)) :
    ∃ fallback, fallback ≤ overrideCapFallback ∧ length = o.monthReset?.getD fallback := by
  have short : exhaustedFallback ≤ overrideCapFallback := by decide
  cases parks_of_parkFor parks with
  | spent => exact ⟨exhaustedFallback, short, rfl⟩
  | capped => exact ⟨overrideCapFallback, le_rfl, rfl⟩
  | told => exact ⟨exhaustedFallback, short, rfl⟩

theorem exhaust_length {o : Outcome} {length : Duration}
    (parks : k.parkFor o = some (.exhaust length)) :
    o.monthReset? = some length ∨ length ≤ overrideCapFallback := by
  obtain ⟨fallback, short, rfl⟩ := exhaust_getD parks
  cases o.monthReset? with
  | none => exact .inr short
  | some r => exact .inl rfl

theorem takes_iff (calendar : host.Calendar window now) (o : Outcome) :
    k.Takes host now o ↔
      (∀ r, o.monthReset? = some r → Duration.asSecs (now + r) ≤ i64Max) ∧
        k.BranchTakes host now o := by
  constructor
  · intro takes
    refine ⟨takes.reset, ?_, takes.counted, takes.tooMany⟩
    intro length parks
    refine ⟨?_, takes.parked length parks⟩
    rcases exhaust_length parks with reported | fallback
    · exact takes.reset length reported
    · refine add_of_le calendar.cooldown ?_
      exact (Nat.add_le_add_left fallback now).trans (Nat.add_le_add_right (Nat.le_add_right _ _) _)
  · rintro ⟨reset, parked, counted, tooMany⟩
    exact ⟨reset, fun length parks => (parked length parks).2, counted, tooMany⟩

/-- Recording an outcome completes exactly where the key takes it. -/
theorem digestOps_fit_iff (calendar : host.Calendar window now)
    (low : k.consecutiveFailures < failThreshold) (o : Outcome) :
    (∀ op ∈ k.digestOps now o, op.Fits host) ↔ k.Takes host now o := by
  rw [takes_iff calendar]
  cases o with
  | transport err =>
    have count : (Op.sum64 (k.stats.transportErrors + 1)).Fits host ↔
        k.stats.transportErrors < u64Max := sum64_fits_iff
    rw [digestOps, recordTransportOps, List.forall_mem_cons, count]
    constructor
    · intro fits
      refine ⟨?_, parkFits_failure, ?_, ?_⟩
      · intro r reset
        cases reset
      · intro n same
        cases same
        exact fits.1
      · intro _ _ same
        cases same
    · intro takes
      exact ⟨takes.2.2.1 _ rfl, failOps_fit calendar low⟩
  | response status rl bodySnippet =>
    have kept : (k.noteResponse now status rl).consecutiveFailures = k.consecutiveFailures := by
      obtain ⟨_, _, _, _, _, noted⟩ := k.noteResponse_fields now status rl
      rw [noted]
    rw [digestOps, List.forall_mem_append, noteResponseOps_fit_iff status rl bodySnippet,
      branchOps_fit_iff calendar (by rw [kept]; exact low) status rl bodySnippet,
      noteResponse_branchTakes]

end Operations

end KeyState

end BraveRotator
