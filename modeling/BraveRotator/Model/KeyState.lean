import BraveRotator.Model.RateLimit

namespace BraveRotator

inductive Health where
  | ok
  /-- Skipped until the instant, then probed. -/
  | disabled (parkedUntil : Instant) (reason : String)
  /-- Monthly quota used up. -/
  | exhausted (parkedUntil : Instant)
  deriving DecidableEq, Repr

def Health.isOk : Health → Bool
  | .ok => true
  | _ => false

structure Stats where
  requests : Nat := 0
  ok : Nat := 0
  upstream429 : Nat := 0
  client4xx : Nat := 0
  server5xx : Nat := 0
  transportErrors : Nat := 0
  lastStatus : Option Nat := none
  lastError : Option String := none
  deriving DecidableEq, Repr

structure KeyState where
  token : String
  label : String
  health : Health
  secLimit : Nat
  limitsLearned : Bool
  monthLimit : Option Nat
  monthRemaining : Option Nat
  monthResetAt : Option Instant
  holdUntil : Option Instant
  /-- Oldest first, as in the deque. -/
  sends : List Instant
  lastUsed : Option Instant
  lastOk : Option Instant
  consecutiveFailures : Nat
  consecutive429 : Nat
  disableStrikes : Nat
  disabledSince : Option Instant
  stats : Stats
  monthlyCapOverride : Option Nat
  deriving DecidableEq, Repr

namespace KeyState

def new (idx : Nat) (token : String) (defaultRps : Nat) (monthlyCapOverride : Option Nat) : KeyState :=
  let tail := String.ofList (token.toList.reverse.take 4).reverse
  { label := s!"k{idx + 1}:..{tail}", token, health := .ok, secLimit := max defaultRps 1,
    limitsLearned := false, monthLimit := none, monthRemaining := none, monthResetAt := none,
    holdUntil := none, sends := [], lastUsed := none, lastOk := none, consecutiveFailures := 0,
    consecutive429 := 0, disableStrikes := 0, disabledSince := none, stats := {}, monthlyCapOverride }

/-- Re-enables keys whose cooldown has elapsed. -/
def refresh (k : KeyState) (now : Instant) : KeyState :=
  match k.health with
  | .disabled u _ => if u ≤ now then { k with health := .ok } else k
  | .exhausted u =>
    if u ≤ now then { k with monthRemaining := none, monthResetAt := none, health := .ok } else k
  | .ok => k

def pruneWindow (k : KeyState) (now : Instant) (window : Duration) : KeyState :=
  { k with sends := k.sends.dropWhile fun t => window ≤ saturatingDurationSince now t }

/-- The last part of `availability`, where only the window can be in the way. -/
def windowAvailability (k : KeyState) (now : Instant) (window : Duration) :
    KeyState × Except Instant Unit :=
  let k := k.pruneWindow now window
  (k, match k.sends.head? with
    | some oldest =>
      if max k.secLimit 1 ≤ wrapU32 k.sends.length then .error (oldest + window) else .ok ()
    | none => .ok ())

/-- `ok` if a request may be sent now, otherwise the earliest instant it may. -/
def availability (k : KeyState) (now : Instant) (window : Duration) :
    KeyState × Except Instant Unit :=
  match k.health with
  | .disabled u _ => (k, .error u)
  | .exhausted u => (k, .error u)
  | .ok =>
    match k.holdUntil.filter (now < ·) with
    | some h => (k, .error h)
    | none => { k with holdUntil := none }.windowAvailability now window

def freeSlots (k : KeyState) : Nat :=
  if !k.health.isOk || k.holdUntil.isSome then 0 else max k.secLimit 1 - wrapU32 k.sends.length

/-- Brave reports a monthly limit of 0 for plans without a monthly cap. -/
def monthUnlimited (k : KeyState) : Bool :=
  if k.monthlyCapOverride.isSome then false else k.monthLimit = some 0

def effectiveMonthUsed (k : KeyState) : Nat :=
  if k.monthlyCapOverride.isSome then k.stats.ok
  else
    match k.monthLimit, k.monthRemaining with
    | some l, some r => l - r
    | _, _ => 0

/-- Unknown or unlimited count as plenty. -/
def monthRemainingForRanking (k : KeyState) : Nat :=
  match k.monthlyCapOverride with
  | some cap => cap - k.effectiveMonthUsed
  | none => if k.monthUnlimited then u64Max else k.monthRemaining.getD u64Max

def overrideCapExhausted (k : KeyState) : Bool :=
  k.monthlyCapOverride.any (· ≤ k.effectiveMonthUsed)

def learnLimits (k : KeyState) (now : Instant) (rl : RateLimitInfo) : KeyState :=
  let k := match rl.limit.second.filter (0 < ·) with
    | some l => { k with secLimit := min l maxLearnedRps }
    | none => k
  let k := if rl.limit.month.isSome then { k with monthLimit := rl.limit.month } else k
  let k := if rl.remaining.month.isSome then { k with monthRemaining := rl.remaining.month } else k
  let k := match rl.monthReset with
    | some r => { k with monthResetAt := some (now + r) }
    | none => k
  if !k.limitsLearned && (rl.limit.second.isSome || rl.limit.month.isSome) then
    { k with limitsLearned := true }
  else k

def disable (k : KeyState) (now : Instant) (base max : Duration) (reason : String) : KeyState :=
  let strikes := min (k.disableStrikes + 1) u32Max
  let factor := 1 <<< min (strikes - 1) 16
  let dur := min (base * factor) max
  { k with
    disableStrikes := strikes, disabledSince := some (k.disabledSince.getD now),
    consecutiveFailures := 0, consecutive429 := 0, health := .disabled (now + dur) reason }

def exhaust (k : KeyState) (now : Instant) (resetIn : Option Duration) : KeyState :=
  let parkedUntil := now + resetIn.getD exhaustedFallback
  { k with monthRemaining := some 0, monthResetAt := some parkedUntil, health := .exhausted parkedUntil }

def fail (k : KeyState) (now : Instant) (what : String) : KeyState :=
  let k := { k with consecutiveFailures := wrapU32 (k.consecutiveFailures + 1) }
  if failThreshold ≤ k.consecutiveFailures then
    k.disable now failBackoffBase failBackoffMax
      s!"{what} ({k.consecutiveFailures} consecutive failures)"
  else k

end KeyState

end BraveRotator
