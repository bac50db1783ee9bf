import BraveRotator.Model.KeyState

namespace BraveRotator

/-- What a request should do after the pool has digested an upstream outcome. -/
inductive Verdict where
  | ok
  | retryOtherKey
  | returnToClient
  deriving DecidableEq, Repr

inductive Outcome where
  | response (status : Nat) (rl : Option RateLimitInfo) (bodySnippet : Option String)
  | transport (err : String)
  deriving DecidableEq, Repr

structure Lease where
  idx : Nat
  token : String
  label : String
  deriving DecidableEq, Repr

/-- Why `tryAcquire` could not hand out a key right now. -/
inductive Next where
  /-- Some key becomes eligible at this instant. -/
  | at (instant : Instant)
  /-- Every key is disabled or exhausted. -/
  | unavailable (earliest : Option Instant) (summary : String)
  deriving DecidableEq, Repr

inductive AcquireError where
  | saturated (retryAfter : Duration)
  | unavailable (retryAfter : Option Duration) (summary : String)
  deriving DecidableEq, Repr

structure PoolConfig where
  windowMargin : Duration
  defaultRps : Nat
  defaultRps_le : defaultRps ≤ u32Max := by decide
  /-- Positional, shorter lists and `none` entries leave the key to Brave's own limits. -/
  monthlyLimits : List (Option Nat)

/-- The key states behind the mutex, with the clock and formatters of the process. -/
structure Pool where
  keys : List KeyState
  cfg : PoolConfig
  host : Host

/-- Lower is better: least recently used first, then most monthly quota left. -/
abbrev Score := WithBot Instant ×ₗ Natᵒᵈ

def KeyState.score (k : KeyState) : Score :=
  toLex ((k.lastUsed : WithBot Instant), OrderDual.toDual k.monthRemainingForRanking)

structure Picked where
  best : Option (Nat × Score) := none
  next : Option Instant := none
  anyHealthy : Bool := false

/-- The body of the loop in `pick` on a key that is not skipped. -/
def Picked.visit (acc : Picked) (i : Nat) (k : KeyState) (now : Instant) (window : Duration) :
    KeyState × Picked :=
  let anyHealthy := acc.anyHealthy || k.health.isOk
  let (k, avail) := k.availability now window
  match avail with
  | .ok () =>
    let better := match acc.best with
      | some (_, s) => decide (k.score < s)
      | none => true
    (k, { acc with anyHealthy, best := if better then some (i, k.score) else acc.best })
  | .error at' =>
    (k, { acc with
      anyHealthy, next := match acc.next with
        | some n => some (min n at')
        | none => some at' })

/-- The loop in `pick`, from index `i` on. -/
def pickFrom (now : Instant) (window : Duration) (exclude : List Nat) (skipExcluded : Bool) :
    Nat → Picked → List KeyState → List KeyState × Picked
  | _, acc, [] => ([], acc)
  | i, acc, k :: ks =>
    if skipExcluded && exclude.contains i then
      let (ks, acc) := pickFrom now window exclude skipExcluded (i + 1) acc ks
      (k :: ks, acc)
    else
      let (k, acc) := acc.visit i k now window
      let (ks, acc) := pickFrom now window exclude skipExcluded (i + 1) acc ks
      (k :: ks, acc)

def KeyState.healthLine (host : Host) (k : KeyState) : String :=
  match k.health with
  | .disabled u reason => s!"{k.label} disabled ({reason}) until {host.fmtInstant u}"
  | .exhausted u => s!"{k.label} monthly quota exhausted until {host.fmtInstant u}"
  | .ok => s!"{k.label} ok"

/-- Reserves the slot. -/
def KeyState.grant (k : KeyState) (now : Instant) : KeyState :=
  { k with
    sends := k.sends ++ [now], lastUsed := some now
    stats := { k.stats with requests := k.stats.requests + 1 } }

def KeyState.lease (k : KeyState) (idx : Nat) : Lease := { idx, token := k.token, label := k.label }

namespace Pool

def new (host : Host) (keys : List String) (cfg : PoolConfig) : Pool where
  keys := keys.mapIdx fun i token =>
    KeyState.new i token cfg.defaultRps ((cfg.monthlyLimits[i]?).join)
  cfg := cfg
  host := host

def window (p : Pool) : Duration := braveWindow + p.cfg.windowMargin

def pick (p : Pool) (now : Instant) (exclude : List Nat) (skipExcluded : Bool) : Pool × Picked :=
  let (keys, picked) := pickFrom now p.window exclude skipExcluded 0 {} p.keys
  ({ p with keys }, picked)

/-- The part of `tryAcquire` that selects. -/
def choose (p : Pool) (now : Instant) (exclude : List Nat) : Pool × Picked :=
  let p := { p with keys := p.keys.map (KeyState.refresh · now) }
  let (p, result) := p.pick now exclude true
  -- Only excluded keys could serve this: allow them again.
  if result.best.isNone && !exclude.isEmpty && !result.anyHealthy then p.pick now exclude false
  else (p, result)

/-- Non-blocking selection at `now`; reserves the slot on success. -/
def tryAcquire (p : Pool) (now : Instant) (exclude : List Nat) : Pool × Except Next Lease :=
  let (p, result) := p.choose now exclude
  match result.best with
  | some (i, _) =>
    match p.keys[i]? with
    | some k => ({ p with keys := p.keys.set i (k.grant now) }, .ok (k.lease i))
    | none => (p, .error (.at now)) -- the index in `keys[i]` is always in range
  | none =>
    if result.anyHealthy then (p, .error (.at (result.next.getD now)))
    else
      (p, .error (.unavailable result.next
        (String.intercalate "; " (p.keys.map (KeyState.healthLine p.host)))))

end Pool

end BraveRotator
