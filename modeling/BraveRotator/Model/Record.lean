import BraveRotator.Model.Pool

namespace BraveRotator

namespace KeyState

/-- What a success does before the monthly quota is looked at. -/
def noteSuccess (k : KeyState) (now : Instant) : KeyState :=
  let k := { k with
    stats := { k.stats with ok := k.stats.ok + 1, lastError := none }
    lastOk := some now, consecutiveFailures := 0, consecutive429 := 0 }
  if 0 < k.disableStrikes then { k with disableStrikes := 0, disabledSince := none } else k

/-- `200..=299` -/
def recordSuccess (k : KeyState) (now : Instant) (rl : Option RateLimitInfo) : KeyState :=
  let k := k.noteSuccess now
  -- The last allowed request of the month tells us so.
  if rl.any (·.monthExhausted) then k.exhaust now (rl.bind (·.monthReset))
  else if k.overrideCapExhausted then
    k.exhaust now (some ((rl.bind (·.monthReset)).getD overrideCapFallback))
  else k

/-- `429` -/
def recordTooMany (k : KeyState) (now : Instant) (rl : Option RateLimitInfo) (detail : String) :
    KeyState :=
  let k := { k with
    stats := { k.stats with
      upstream429 := k.stats.upstream429 + 1, lastError := some s!"HTTP 429{detail}" }
    consecutive429 := wrapU32 (k.consecutive429 + 1) }
  match rl with
  | some r =>
    if r.monthExhausted then k.exhaust now r.monthReset
    else { k with holdUntil := some (now + r.secondWait) }
  | none =>
    let k := { k with holdUntil := some (now + 2 * braveWindow) }
    if unexplained429Threshold ≤ k.consecutive429 then
      k.disable now unexplained429Backoff unexplained429Backoff
        s!"{k.consecutive429} consecutive 429s without rate-limit headers{detail}"
    else k

/-- `401 | 403` -/
def recordRejected (k : KeyState) (now : Instant) (status : Nat) (detail : String) : KeyState :=
  let reason := s!"HTTP {status}{detail}"
  let k := { k with
    stats := { k.stats with client4xx := k.stats.client4xx + 1, lastError := some reason } }
  k.disable now authBackoffBase authBackoffMax reason

/-- `400..=499`, the rest of it -/
def recordClientError (k : KeyState) (status : Nat) (detail : String) : KeyState :=
  { k with
    stats := { k.stats with
      client4xx := k.stats.client4xx + 1, lastError := some s!"HTTP {status}{detail}" } }

/-- `500..=599` -/
def recordServerError (k : KeyState) (now : Instant) (status : Nat) (detail : String) : KeyState :=
  let k := { k with
    stats := { k.stats with
      server5xx := k.stats.server5xx + 1, lastError := some s!"HTTP {status}{detail}" } }
  k.fail now s!"HTTP {status}{detail}"

def recordTransport (k : KeyState) (now : Instant) (err : String) : KeyState :=
  let k := { k with
    stats := { k.stats with
      transportErrors := k.stats.transportErrors + 1, lastStatus := none, lastError := some err } }
  k.fail now s!"transport error: {err}"

/-- What `record` does before it looks at the status. -/
def noteResponse (k : KeyState) (now : Instant) (status : Nat) (rl : Option RateLimitInfo) :
    KeyState :=
  let k := { k with stats := { k.stats with lastStatus := some status } }
  match rl with
  | some rl => k.learnLimits now rl
  | none => k

/-- The body of `record`, on the key it is about. -/
def digest (k : KeyState) (now : Instant) : Outcome → KeyState × Verdict
  | .transport err => (k.recordTransport now err, .retryOtherKey)
  | .response status rl bodySnippet =>
    let k := k.noteResponse now status rl
    let detail := match bodySnippet.filter (· ≠ "") with
      | some s => s!": {s}"
      | none => ""
    if 200 ≤ status ∧ status ≤ 299 then (k.recordSuccess now rl, .ok)
    else if status = 429 then (k.recordTooMany now rl detail, .retryOtherKey)
    else if status = 401 ∨ status = 403 then (k.recordRejected now status detail, .retryOtherKey)
    else if 400 ≤ status ∧ status ≤ 499 then (k.recordClientError status detail, .returnToClient)
    else if 500 ≤ status ∧ status ≤ 599 then (k.recordServerError now status detail, .retryOtherKey)
    else (k, .returnToClient)

end KeyState

/-- Digest the result of a request sent with `idx` and decide what the caller should do. -/
def Pool.record (p : Pool) (now : Instant) (idx : Nat) (outcome : Outcome) : Pool × Verdict :=
  match p.keys[idx]? with
  | none => (p, .returnToClient)
  | some k =>
    let (k, verdict) := k.digest now outcome
    ({ p with keys := p.keys.set idx k }, verdict)

end BraveRotator
