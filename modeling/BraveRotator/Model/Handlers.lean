import BraveRotator.Model.Proxy

namespace BraveRotator

/-- The `config` part of the status page. -/
structure StatusConfig where
  upstream : String
  maxQueueWaitMs : Nat
  upstreamTimeoutMs : Nat
  windowMarginMs : Nat
  authRequired : Bool
  accessLog : Bool
  deriving DecidableEq, Repr

/-- The fields of the JSON body of `/proxy/status`. -/
structure StatusReply where
  service : String
  version : String
  uptime : String
  config : StatusConfig
  pool : PoolSnapshot
  deriving DecidableEq, Repr

/-- The status code of `/proxy/health`, and the fields of its JSON body. -/
structure HealthReply where
  code : Nat
  status : String
  keysHealthy : Nat
  keysTotal : Nat
  deriving DecidableEq, Repr

def status (cfg : Config) (started : Instant) (p : Pool) (now : Instant) (headers : HeaderMap) :
    Pool × Except ErrorResponse StatusReply :=
  if authorized cfg headers then
    let (p, snap) := p.snapshot now
    (p, .ok
      { service := "brave-rotator", version := "0.1.0"
        uptime := p.host.fmtDur (saturatingDurationSince now started)
        config :=
          { upstream := cfg.upstreamBase
            maxQueueWaitMs := Duration.asMillis cfg.maxQueueWait
            upstreamTimeoutMs := Duration.asMillis cfg.upstreamTimeout
            windowMarginMs := Duration.asMillis cfg.windowMargin
            authRequired := cfg.proxyToken.isSome
            accessLog := cfg.accessLog }
        pool := snap })
  else (p, .error (errorResponse 401 "unauthorized" "missing or wrong X-Proxy-Token" none))

def health (p : Pool) (now : Instant) : Pool × HealthReply :=
  let (p, snap) := p.snapshot now
  let ok := decide (0 < snap.keysHealthy)
  (p,
    { code := if ok then 200 else 503
      status := if ok then "ok" else "degraded"
      keysHealthy := snap.keysHealthy
      keysTotal := snap.keysTotal })

/-- Where the router of `run` sends a request. -/
inductive Endpoint where
  | status | health | methodNotAllowed | proxy
  deriving DecidableEq, Repr

/-- `uri.path()` -/
def ClientRequest.path (req : ClientRequest) : List Char :=
  (req.pathAndQuery.getD "/").toList.takeWhile (· ≠ '?')

/-- A route with `get` takes `HEAD` as well, and turns other methods away. -/
def route (req : ClientRequest) : Endpoint :=
  let get := fun (endpoint : Endpoint) =>
    if ["GET", "HEAD"].contains req.method then endpoint else .methodNotAllowed
  if req.path = "/proxy/status".toList then get .status
  else if req.path = "/proxy/health".toList then get .health
  else .proxy

section Reporter

variable (s : PoolSnapshot)

/-- What the report says of the monthly quota. -/
def reportMonthly : String :=
  let shown := fun (v : Option Nat) => (v.map toString).getD "?"
  match s.monthRemainingTotal, s.monthLimitTotal, s.monthUnlimitedKeys with
  | none, none, 0 => "unknown yet"
  | none, none, n => s!"no cap ({n} key(s))"
  | rem, lim, n =>
    let m := s!"{shown rem} of {shown lim}"
    if 0 < n then m ++ s!" + {n} key(s) without cap" else m

/-- The first line of the report. -/
def reportLine : String :=
  let t := s.totals
  let failed := t.upstream429 + t.client4xx + t.server5xx + t.transportErrors
  s!"status: {s.keysHealthy}/{s.keysTotal} keys healthy, capacity {s.rpsCapacity} req/s, " ++
    s!"monthly remaining {reportMonthly s}, " ++
    s!"upstream attempts {t.ok} ok / {failed} failed ({t.upstream429} were 429s)"

def KeySnapshot.warning (k : KeySnapshot) : String :=
  let shown := fun (v : Option String) => v.getD "?"
  let reason := k.reason.getD "-"
  s!"key {k.key} is {k.state.text.toUpper}: {reason}; " ++
    s!"retrying at {shown k.parkedUntil} (in {shown k.untilIn})"

/-- The keys that the report warns of. -/
def reportedKeys : List KeySnapshot :=
  s.keys.filter fun k => k.state = .disabled || k.state = .exhausted

/-- One turn of the loop in `reporter`: its lines. -/
def report : List String := reportLine s :: (reportedKeys s).map KeySnapshot.warning

end Reporter

end BraveRotator
