import BraveRotator.Model.Operations

namespace BraveRotator

/-- What the status page tells outcomes apart by. -/
inductive OutcomeKind where
  | ok | tooMany | client | server | transport
  /-- Any other status, which is not counted. -/
  | other
  deriving DecidableEq, Repr

namespace Outcome

def kind : Outcome → OutcomeKind
  | .transport _ => .transport
  | .response status _ _ =>
    if 200 ≤ status ∧ status ≤ 299 then .ok
    else if status = 429 then .tooMany
    else if 400 ≤ status ∧ status ≤ 499 then .client
    else if 500 ≤ status ∧ status ≤ 599 then .server
    else .other

def status? : Outcome → Option Nat
  | .transport _ => none
  | .response status _ _ => some status

/-- The text that a failure leaves on the status page. -/
def error? (o : Outcome) : Option String :=
  match o with
  | .transport err => some err
  | .response status _ bodySnippet =>
    if o.kind = .ok then none
    else some (s!"HTTP {status}" ++ (bodySnippet.filter (· ≠ "")).elim "" fun s => s!": {s}")

end Outcome

namespace Stats

def count (s : Stats) : OutcomeKind → Nat
  | .ok => s.ok
  | .tooMany => s.upstream429
  | .client => s.client4xx
  | .server => s.server5xx
  | .transport => s.transportErrors
  | .other => 0

/-- The statistics of a key, told from the number of its leases and the outcomes recorded for it. -/
structure Tells (s : Stats) (leases : Nat) (log : List Outcome) : Prop where
  requests : s.requests = leases
  counts : ∀ kind, kind ≠ .other → s.count kind = log.countP (·.kind = kind)
  lastStatus : s.lastStatus = log.getLast?.bind Outcome.status?
  lastError : s.lastError = (log.filter (·.kind ≠ .other)).getLast?.bind Outcome.error?

/-- What an outcome makes of the statistics. -/
structure Noted (s : Stats) (o : Outcome) (s' : Stats) : Prop where
  requests : s'.requests = s.requests
  counts : ∀ kind, kind ≠ .other → s'.count kind = s.count kind + if o.kind = kind then 1 else 0
  lastStatus : s'.lastStatus = o.status?
  lastError : s'.lastError = if o.kind = .other then s.lastError else o.error?

/-- The counters are in the range of a `u64`, so none of them has wrapped. -/
structure Fits (s : Stats) : Prop where
  requests : s.requests ≤ u64Max
  counts : ∀ kind, s.count kind ≤ u64Max

variable {s s' : Stats} {leases : Nat} {log : List Outcome} {o : Outcome}

theorem fits_new : Fits {} := by
  constructor
  · exact Nat.zero_le _
  · intro kind
    cases kind <;> exact Nat.zero_le _

theorem Fits.noted (fits : s.Fits) (noted : s.Noted o s')
    (room : o.kind ≠ .other → s.count o.kind + 1 ≤ u64Max) : s'.Fits := by
  constructor
  · rw [noted.requests]
    exact fits.requests
  · intro kind
    by_cases other : kind = .other
    · subst other
      exact Nat.zero_le _
    · rw [noted.counts kind other]
      split
      · next same =>
        subst same
        exact room other
      · exact fits.counts kind

theorem Fits.granted (fits : s.Fits) (room : s.requests < u64Max) :
    Fits { s with requests := s.requests + 1 } := by
  constructor
  · exact room
  · intro kind
    have same : count { s with requests := s.requests + 1 } kind = s.count kind := by
      cases kind <;> rfl
    rw [same]
    exact fits.counts kind

theorem tells_new : Tells {} 0 [] := ⟨rfl, fun kind _ => by cases kind <;> rfl, rfl, rfl⟩

theorem Tells.noted (tells : s.Tells leases log) (noted : s.Noted o s') :
    s'.Tells leases (log ++ [o]) := by
  refine ⟨noted.requests.trans tells.requests, ?_, ?_, ?_⟩
  · intro kind counted
    rw [noted.counts kind counted, tells.counts kind counted, List.countP_append, List.countP_singleton]
    simp only [decide_eq_true_eq]
  · rw [noted.lastStatus, List.getLast?_concat]
    rfl
  · rw [noted.lastError, List.filter_append]
    by_cases other : o.kind = .other
    · have dropped : [o].filter (·.kind ≠ .other) = [] := by simp [other]
      rw [if_pos other, dropped, List.append_nil]
      exact tells.lastError
    · have kept : [o].filter (·.kind ≠ .other) = [o] := by simp [other]
      rw [if_neg other, kept, List.getLast?_concat]
      rfl

theorem Tells.granted (tells : s.Tells leases log) :
    Tells { s with requests := s.requests + 1 } (leases + 1) log :=
  ⟨congrArg (· + 1) tells.requests, fun kind counted => by
    rw [← tells.counts kind counted]
    cases kind <;> rfl, tells.lastStatus, tells.lastError⟩

end Stats

namespace KeyState

section Branches

variable (k : KeyState) (now : Instant)

theorem disable_stats (base ceiling : Duration) (reason : String) :
    (k.disable now base ceiling reason).stats = k.stats := rfl

theorem fail_stats (what : String) : (k.fail now what).stats = k.stats := by
  unfold fail
  dsimp only
  split <;> rfl

theorem noteResponse_stats (status : Nat) (rl : Option RateLimitInfo) :
    (k.noteResponse now status rl).stats = { k.stats with lastStatus := some status } := by
  unfold noteResponse learnLimits
  grind

theorem recordSuccess_stats (rl : Option RateLimitInfo) :
    (k.recordSuccess now rl).stats = { k.stats with ok := k.stats.ok + 1, lastError := none } := by
  unfold recordSuccess noteSuccess exhaust
  grind

theorem recordTooMany_stats (rl : Option RateLimitInfo) (detail : String) :
    (k.recordTooMany now rl detail).stats =
      { k.stats with
        upstream429 := k.stats.upstream429 + 1, lastError := some s!"HTTP 429{detail}" } := by
  unfold recordTooMany exhaust disable
  grind

end Branches

theorem error?_response {status : Nat} (rl : Option RateLimitInfo) {bodySnippet : Option String}
    (failed : (Outcome.response status rl bodySnippet).kind ≠ .ok) :
    (Outcome.response status rl bodySnippet).error? =
      some (s!"HTTP {status}" ++ (bodySnippet.filter (· ≠ "")).elim "" fun s => s!": {s}") :=
  if_neg failed

/-- The spec lemma of `digest` for the statistics. -/
theorem digest_noted (k : KeyState) (now : Instant) (o : Outcome) :
    k.stats.Noted o (k.digest now o).1.stats := by
  cases o with
  | transport err =>
    simp only [digest, recordTransport, fail_stats]
    refine ⟨rfl, fun kind counted => ?_, rfl, rfl⟩
    cases kind <;> simp [Stats.count, Outcome.kind]
  | response status rl bodySnippet =>
    simp only [digest]
    have failure : (Outcome.response status rl bodySnippet).kind ≠ .ok → _ := error?_response rl
    by_cases success : 200 ≤ status ∧ status ≤ 299
    · have kind : (Outcome.response status rl bodySnippet).kind = .ok := if_pos success
      have error : (Outcome.response status rl bodySnippet).error? = none := if_pos kind
      rw [if_pos success, recordSuccess_stats, noteResponse_stats]
      refine ⟨rfl, fun kind' counted => ?_, rfl, by rw [kind, error]; rfl⟩
      rw [kind]
      cases kind' <;> rfl
    rw [if_neg success]
    by_cases tooMany : status = 429
    · have kind : (Outcome.response status rl bodySnippet).kind = .tooMany := by
        simp only [Outcome.kind, if_neg success, if_pos tooMany]
      rw [if_pos tooMany, recordTooMany_stats, noteResponse_stats]
      refine ⟨rfl, fun kind' counted => ?_, rfl, ?_⟩
      · rw [kind]
        cases kind' <;> rfl
      · rw [kind, failure (by rw [kind]; decide), tooMany]
        cases bodySnippet.filter (· ≠ "") <;> rfl
    rw [if_neg tooMany]
    by_cases client : 400 ≤ status ∧ status ≤ 499
    · have kind : (Outcome.response status rl bodySnippet).kind = .client := by
        simp only [Outcome.kind, if_neg success, if_neg tooMany, if_pos client]
      have counted : ∀ kind', kind' ≠ .other →
          ({ k.stats with client4xx := k.stats.client4xx + 1 } : Stats).count kind' =
            k.stats.count kind' + if OutcomeKind.client = kind' then 1 else 0 := by
        intro kind' _
        cases kind' <;> rfl
      split
      · simp only [recordRejected, disable_stats, noteResponse_stats]
        refine ⟨rfl, ?_, rfl, ?_⟩
        · rw [kind]
          exact counted
        · rw [kind, failure (by rw [kind]; decide)]
          cases bodySnippet.filter (· ≠ "") <;> rfl
      · simp only [recordClientError, noteResponse_stats]
        refine ⟨rfl, ?_, rfl, ?_⟩
        · rw [kind]
          exact counted
        · rw [kind, failure (by rw [kind]; decide)]
          cases bodySnippet.filter (· ≠ "") <;> rfl
    rw [if_neg (by omega), if_neg client]
    by_cases server : 500 ≤ status ∧ status ≤ 599
    · have kind : (Outcome.response status rl bodySnippet).kind = .server := by
        simp only [Outcome.kind, if_neg success, if_neg tooMany, if_neg client, if_pos server]
      simp only [if_pos server, recordServerError, fail_stats, noteResponse_stats]
      refine ⟨rfl, fun kind' counted => ?_, rfl, ?_⟩
      · rw [kind]
        cases kind' <;> rfl
      · rw [kind, failure (by rw [kind]; decide)]
        cases bodySnippet.filter (· ≠ "") <;> rfl
    · have kind : (Outcome.response status rl bodySnippet).kind = .other := by
        simp only [Outcome.kind, if_neg success, if_neg tooMany, if_neg client, if_neg server]
      rw [if_neg server, noteResponse_stats]
      refine ⟨rfl, fun kind' counted => ?_, rfl, by rw [kind]; rfl⟩
      rw [kind, if_neg (Ne.symm counted)]
      cases kind' <;> rfl

/-- The sum that an outcome makes of its counter is one of those that `digest` has to take. -/
theorem sum64_mem_digestOps (k : KeyState) (now : Instant) {o : Outcome} (counted : o.kind ≠ .other) :
    .sum64 (k.stats.count o.kind + 1) ∈ k.digestOps now o := by
  cases o with
  | transport err => exact List.mem_cons_self
  | response status rl bodySnippet =>
    apply List.mem_append_right
    dsimp only [Outcome.kind] at counted ⊢
    by_cases success : 200 ≤ status ∧ status ≤ 299
    · simp only [if_pos success, recordSuccessOps, noteResponse_stats]
      exact List.mem_cons_self
    by_cases tooMany : status = 429
    · simp only [if_neg success, if_pos tooMany, recordTooManyOps, noteResponse_stats]
      exact List.mem_cons_self
    by_cases client : 400 ≤ status ∧ status ≤ 499
    · simp only [if_neg success, if_neg tooMany, if_pos client, recordRejectedOps,
        recordClientErrorOps, noteResponse_stats]
      split <;> exact List.mem_cons_self
    have allowed : ¬ (status = 401 ∨ status = 403) := by omega
    by_cases server : 500 ≤ status ∧ status ≤ 599
    · simp only [if_neg success, if_neg tooMany, if_neg allowed, if_neg client, if_pos server,
        recordServerErrorOps, noteResponse_stats]
      exact List.mem_cons_self
    · simp only [if_neg success, if_neg tooMany, if_neg client, if_neg server] at counted
      exact absurd rfl counted

end KeyState

end BraveRotator
