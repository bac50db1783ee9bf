import BraveRotator.Model.Record

namespace BraveRotator

structure PerSecond where
  limit : Nat
  limitsLearned : Bool
  inWindow : Nat
  nextSlotInMs : Nat
  deriving DecidableEq, Repr

structure Monthly where
  unlimited : Bool
  limit : Option Nat
  remaining : Option Nat
  resetAt : Option String
  resetIn : Option String
  deriving DecidableEq, Repr

/-- The `state` texts of a key, as the status page shows them. -/
inductive KeyStatus where
  | cooling | busy | ok | disabled | exhausted
  deriving DecidableEq, Repr

def KeyStatus.text : KeyStatus → String
  | .cooling => "cooling"
  | .busy => "busy"
  | .ok => "ok"
  | .disabled => "disabled"
  | .exhausted => "exhausted"

structure KeySnapshot where
  key : String
  state : KeyStatus
  reason : Option String
  parkedUntil : Option String
  untilIn : Option String
  disabledSince : Option String
  perSecond : PerSecond
  monthly : Monthly
  lastUsedAgo : Option String
  lastOkAgo : Option String
  stats : Stats
  deriving DecidableEq, Repr

structure PoolSnapshot where
  now : String := ""
  keysTotal : Nat := 0
  keysHealthy : Nat := 0
  rpsCapacity : Nat := 0
  slotsAvailableNow : Nat := 0
  /-- Over keys with a monthly cap. -/
  monthLimitTotal : Option Nat := none
  monthRemainingTotal : Option Nat := none
  monthUnlimitedKeys : Nat := 0
  totals : Stats := {}
  keys : List KeySnapshot := []
  deriving DecidableEq, Repr

namespace KeyState

/-- The `(state, reason, until)` of a key in `snapshot`. -/
def status (k : KeyState) (now : Instant) (avail : Except Instant Unit) :
    KeyStatus × Option String × Option Instant :=
  match k.health with
  | .ok =>
    if k.holdUntil.any (now < ·) then (.cooling, some "upstream asked us to slow down", k.holdUntil)
    else
      match avail with
      | .error at' => (.busy, none, some at')
      | .ok () => (.ok, none, none)
  | .disabled u reason => (.disabled, some reason, some u)
  | .exhausted u => (.exhausted, some "monthly quota used up", some u)

def toSnapshot (host : Host) (k : KeyState) (now : Instant) (avail : Except Instant Unit) :
    KeySnapshot :=
  let (state, reason, parkedUntil) := k.status now avail
  let ago := fun (t : Instant) => host.fmtDur (saturatingDurationSince now t)
  let ahead := fun (t : Instant) => host.fmtDur (saturatingDurationSince t now)
  { key := k.label, state, reason
    parkedUntil := parkedUntil.map host.fmtInstant
    untilIn := parkedUntil.map ahead
    disabledSince := k.disabledSince.map host.fmtInstant
    perSecond :=
      { limit := k.secLimit, limitsLearned := k.limitsLearned, inWindow := wrapU32 k.sends.length
        nextSlotInMs := match avail with
          | .error at' => wrapU64 (Duration.asMillis (saturatingDurationSince at' now))
          | .ok () => 0 }
    monthly :=
      { unlimited := k.monthUnlimited
        limit := k.monthLimit.filter fun _ => !k.monthUnlimited
        remaining := k.monthRemaining.filter fun _ => !k.monthUnlimited
        resetAt := k.monthResetAt.map host.fmtInstant
        resetIn := k.monthResetAt.map ahead }
    lastUsedAgo := k.lastUsed.map ago
    lastOkAgo := k.lastOk.map ago
    stats := k.stats }

end KeyState

/-- `Some(total.unwrap_or(0) + m)` when the key reports `m`. -/
def addTotal (total m : Option Nat) : Option Nat :=
  match m with
  | some m => some (wrapU64 (total.getD 0 + m))
  | none => total

def Stats.addTotals (totals stats : Stats) : Stats :=
  { totals with
    requests := totals.requests + stats.requests, ok := totals.ok + stats.ok
    upstream429 := totals.upstream429 + stats.upstream429
    client4xx := totals.client4xx + stats.client4xx
    server5xx := totals.server5xx + stats.server5xx
    transportErrors := totals.transportErrors + stats.transportErrors }

/-- The body of the loop in `snapshot`, once the key is refreshed and its availability known. -/
def PoolSnapshot.visit (host : Host) (out : PoolSnapshot) (k : KeyState) (now : Instant)
    (avail : Except Instant Unit) : PoolSnapshot :=
  let out := if k.health.isOk then
      { out with
        keysHealthy := out.keysHealthy + 1
        rpsCapacity := out.rpsCapacity + max k.secLimit 1
        slotsAvailableNow := out.slotsAvailableNow + k.freeSlots }
    else out
  let out := if k.monthUnlimited then
      if k.health.isOk then { out with monthUnlimitedKeys := out.monthUnlimitedKeys + 1 } else out
    else
      { out with
        monthLimitTotal := addTotal out.monthLimitTotal k.monthLimit
        monthRemainingTotal := addTotal out.monthRemainingTotal k.monthRemaining }
  { out with
    totals := out.totals.addTotals k.stats
    keys := out.keys ++ [k.toSnapshot host now avail] }

/-- The loop in `snapshot`. -/
def snapshotFrom (host : Host) (now : Instant) (window : Duration) :
    PoolSnapshot → List KeyState → List KeyState × PoolSnapshot
  | out, [] => ([], out)
  | out, k :: ks =>
    let (k, avail) := (k.refresh now).availability now window
    let (ks, out) := snapshotFrom host now window (out.visit host k now avail) ks
    (k :: ks, out)

def Pool.snapshot (p : Pool) (now : Instant) : Pool × PoolSnapshot :=
  let (keys, out) := snapshotFrom p.host now p.window
    { now := p.host.fmtInstant now, keysTotal := p.keys.length } p.keys
  ({ p with keys }, out)

end BraveRotator
