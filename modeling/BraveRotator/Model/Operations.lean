import BraveRotator.Model.Calls

namespace BraveRotator

/-- An operation of the source that has no result, or a wrapped one, when it leaves its range. -/
inductive Op where
  /-- `Instant + Duration`, which panics when the seconds leave an `i64` -/
  | add (sum : Instant)
  /-- `fmt_instant`, which panics where `humantime` refuses the year -/
  | format (i : Instant)
  /-- `+` on `u32` -/
  | sum32 (sum : Nat)
  /-- `+` on `u64` -/
  | sum64 (sum : Nat)
  deriving DecidableEq, Repr

/-- In seconds since the epoch; RFC 3339 has four digits for the year. -/
def year10000 : Nat := 253402300800

/-- What `checked_add` refuses is not formatted at all. -/
def Host.Prints (host : Host) (i : Instant) : Prop :=
  Duration.asSecs (host.wallClock i) < year10000 ∨ i64Max < Duration.asSecs (host.wallClock i)

instance Host.Prints.decidable (host : Host) (i : Instant) : Decidable (host.Prints i) :=
  inferInstanceAs (Decidable (_ ∨ _))

def Op.Fits (host : Host) : Op → Prop
  | .add sum => Duration.asSecs sum ≤ i64Max
  | .format i => host.Prints i
  | .sum32 sum => sum ≤ u32Max
  | .sum64 sum => sum ≤ u64Max

instance Op.Fits.decidable (host : Host) : ∀ op : Op, Decidable (op.Fits host)
  | .add sum => inferInstanceAs (Decidable (Duration.asSecs sum ≤ i64Max))
  | .format i => inferInstanceAs (Decidable (host.Prints i))
  | .sum32 sum => inferInstanceAs (Decidable (sum ≤ u32Max))
  | .sum64 sum => inferInstanceAs (Decidable (sum ≤ u64Max))

namespace KeyState

def learnLimitsOps (now : Instant) (rl : RateLimitInfo) : List Op :=
  (rl.monthReset.map fun r => .add (now + r)).toList

def disableOps (k : KeyState) (now : Instant) (base max : Duration) : List Op :=
  let strikes := min (k.disableStrikes + 1) u32Max
  let factor := 1 <<< min (strikes - 1) 16
  let dur := min (base * factor) max
  [.add (now + dur), .format (now + dur)]

/-- The end of the park is logged when the key was not exhausted before. -/
def exhaustOps (k : KeyState) (now : Instant) (resetIn : Option Duration) : List Op :=
  let parkedUntil := now + resetIn.getD exhaustedFallback
  match k.health with
  | .exhausted _ => [.add parkedUntil]
  | _ => [.add parkedUntil, .format parkedUntil]

def failOps (k : KeyState) (now : Instant) : List Op :=
  .sum32 (k.consecutiveFailures + 1) ::
    if failThreshold ≤ wrapU32 (k.consecutiveFailures + 1) then
      k.disableOps now failBackoffBase failBackoffMax
    else []

def recordSuccessOps (k : KeyState) (now : Instant) (rl : Option RateLimitInfo) : List Op :=
  .sum64 (k.stats.ok + 1) ::
    let k := k.noteSuccess now
    if rl.any (·.monthExhausted) then k.exhaustOps now (rl.bind (·.monthReset))
    else if k.overrideCapExhausted then
      k.exhaustOps now (some ((rl.bind (·.monthReset)).getD overrideCapFallback))
    else []

def recordTooManyOps (k : KeyState) (now : Instant) (rl : Option RateLimitInfo) : List Op :=
  .sum64 (k.stats.upstream429 + 1) :: .sum32 (k.consecutive429 + 1) ::
    match rl with
    | some r => if r.monthExhausted then k.exhaustOps now r.monthReset else [.add (now + r.secondWait)]
    | none =>
      .add (now + 2 * braveWindow) ::
        if unexplained429Threshold ≤ wrapU32 (k.consecutive429 + 1) then
          k.disableOps now unexplained429Backoff unexplained429Backoff
        else []

def recordRejectedOps (k : KeyState) (now : Instant) : List Op :=
  .sum64 (k.stats.client4xx + 1) :: k.disableOps now authBackoffBase authBackoffMax

def recordClientErrorOps (k : KeyState) : List Op := [.sum64 (k.stats.client4xx + 1)]

def recordServerErrorOps (k : KeyState) (now : Instant) : List Op :=
  .sum64 (k.stats.server5xx + 1) :: k.failOps now

def recordTransportOps (k : KeyState) (now : Instant) : List Op :=
  .sum64 (k.stats.transportErrors + 1) :: k.failOps now

def noteResponseOps (now : Instant) : Option RateLimitInfo → List Op
  | some rl => learnLimitsOps now rl
  | none => []

def digestOps (k : KeyState) (now : Instant) : Outcome → List Op
  | .transport _ => k.recordTransportOps now
  | .response status rl _ =>
    noteResponseOps now rl ++
      let k := k.noteResponse now status rl
      if 200 ≤ status ∧ status ≤ 299 then k.recordSuccessOps now rl
      else if status = 429 then k.recordTooManyOps now rl
      else if status = 401 ∨ status = 403 then k.recordRejectedOps now
      else if 400 ≤ status ∧ status ≤ 499 then k.recordClientErrorOps
      else if 500 ≤ status ∧ status ≤ 599 then k.recordServerErrorOps now
      else []

def availabilityOps (k : KeyState) (now : Instant) (window : Duration) : List Op :=
  match k.health with
  | .disabled _ _ => []
  | .exhausted _ => []
  | .ok =>
    match k.holdUntil.filter (now < ·) with
    | some _ => []
    | none =>
      let k := k.pruneWindow now window
      match k.sends.head? with
      | some oldest =>
        if max k.secLimit 1 ≤ wrapU32 k.sends.length then [.add (oldest + window)] else []
      | none => []

def healthLineOps (k : KeyState) : List Op :=
  match k.health with
  | .disabled u _ => [.format u]
  | .exhausted u => [.format u]
  | .ok => []

def toSnapshotOps (k : KeyState) (now : Instant) (avail : Except Instant Unit) : List Op :=
  ((k.status now avail).2.2.toList ++ k.disabledSince.toList ++ k.monthResetAt.toList).map .format

end KeyState

def pickFromOps (now : Instant) (window : Duration) (exclude : List Nat) (skipExcluded : Bool) :
    Nat → List KeyState → List Op
  | _, [] => []
  | i, k :: ks =>
    if skipExcluded && exclude.contains i then
      pickFromOps now window exclude skipExcluded (i + 1) ks
    else
      k.availabilityOps now window ++ pickFromOps now window exclude skipExcluded (i + 1) ks

def PoolSnapshot.totalsOps (out : PoolSnapshot) (k : KeyState) : List Op :=
  (if k.health.isOk then
    [.sum64 (out.rpsCapacity + max k.secLimit 1), .sum64 (out.slotsAvailableNow + k.freeSlots)]
  else []) ++
  (if k.monthUnlimited then []
  else
    (k.monthLimit.map fun m => .sum64 (out.monthLimitTotal.getD 0 + m)).toList ++
      (k.monthRemaining.map fun m => .sum64 (out.monthRemainingTotal.getD 0 + m)).toList) ++
  [.sum64 (out.totals.requests + k.stats.requests), .sum64 (out.totals.ok + k.stats.ok),
    .sum64 (out.totals.upstream429 + k.stats.upstream429),
    .sum64 (out.totals.client4xx + k.stats.client4xx),
    .sum64 (out.totals.server5xx + k.stats.server5xx),
    .sum64 (out.totals.transportErrors + k.stats.transportErrors)]

def snapshotFromOps (host : Host) (now : Instant) (window : Duration) :
    PoolSnapshot → List KeyState → List Op
  | _, [] => []
  | out, k :: ks =>
    let refreshed := k.refresh now
    let (k, avail) := refreshed.availability now window
    refreshed.availabilityOps now window ++ out.totalsOps k ++ k.toSnapshotOps now avail ++
      snapshotFromOps host now window (out.visit host k now avail) ks

namespace Pool

def pickOps (p : Pool) (now : Instant) (exclude : List Nat) (skipExcluded : Bool) : List Op :=
  pickFromOps now p.window exclude skipExcluded 0 p.keys

def chooseOps (p : Pool) (now : Instant) (exclude : List Nat) : List Op :=
  let p := { p with keys := p.keys.map (KeyState.refresh · now) }
  let first := p.pickOps now exclude true
  let (p, result) := p.pick now exclude true
  if result.best.isNone && !exclude.isEmpty && !result.anyHealthy then
    first ++ p.pickOps now exclude false
  else first

def tryAcquireOps (p : Pool) (now : Instant) (exclude : List Nat) : List Op :=
  p.chooseOps now exclude ++
    let (p, result) := p.choose now exclude
    match result.best with
    | some (i, _) => (p.keys[i]?.map fun k => .sum64 (k.stats.requests + 1)).toList
    | none => if result.anyHealthy then [] else p.keys.flatMap KeyState.healthLineOps

def recordOps (p : Pool) (now : Instant) (idx : Nat) (outcome : Outcome) : List Op :=
  match p.keys[idx]? with
  | none => []
  | some k => k.digestOps now outcome

def snapshotOps (p : Pool) (now : Instant) : List Op :=
  .format now :: snapshotFromOps p.host now p.window
    { now := p.host.fmtInstant now, keysTotal := p.keys.length } p.keys

def ops (p : Pool) : Call → List Op
  | .tryAcquire now exclude => p.tryAcquireOps now exclude
  | .record now idx outcome => p.recordOps now idx outcome
  | .snapshot now => p.snapshotOps now

/-- The call ends, and none of its sums wraps. -/
def Completes (p : Pool) (c : Call) : Prop := ∀ op ∈ p.ops c, op.Fits p.host

instance Completes.decidable (p : Pool) (c : Call) : Decidable (p.Completes c) :=
  inferInstanceAs (Decidable (∀ op ∈ p.ops c, op.Fits p.host))

end Pool

end BraveRotator
