import BraveRotator.Lib.Utf8
import BraveRotator.Model.Config
import BraveRotator.Model.RateLimitHeaders
import BraveRotator.Model.Turnstile
import BraveRotator.Model.Upstream

namespace BraveRotator

/-- Headers that must not be forwarded in either direction (RFC 9110 §7.6.1) or that we own. -/
def hopByHop (name : HeaderName) : Bool :=
  ["connection", "keep-alive", "proxy-authenticate", "proxy-authorization", "te", "trailer",
    "transfer-encoding", "upgrade", "content-length"].contains name

def stripRequestHeader (name : HeaderName) : Bool :=
  hopByHop name ||
    ["host", "expect", "x-subscription-token", "x-api-key", "x-proxy-token",
      "authorization"].contains name

def stripResponseHeader (name : HeaderName) : Bool :=
  hopByHop name || "x-ratelimit-".toList.isPrefixOf name.toList

def authorized (cfg : Config) (headers : HeaderMap) : Bool :=
  match cfg.proxyToken with
  | none => true
  | some expected =>
    (["x-proxy-token", "x-subscription-token"].filterMap headers.get?).any
      (· = HeaderValue.utf8 expected.toList)

/-- A response of the proxy's own: the fields of its JSON body, and `Retry-After` in seconds. -/
structure ErrorResponse where
  status : Nat
  error : String
  detail : String
  retryAfterMs : Option Nat
  retryAfter : Option Nat
  deriving DecidableEq, Repr

def errorResponse (status : Nat) (error detail : String) (retryAfterMs : Option Nat) : ErrorResponse :=
  { status, error, detail, retryAfterMs
    retryAfter := retryAfterMs.map fun ms => max ((ms + 999) / 1000) 1 }

inductive ProxyResponse where
  | forwarded (up : UpstreamResponse)
  | error (e : ErrorResponse)
  deriving DecidableEq

/-- First ~160 printable characters of an error body, for logs and status. -/
def snippet (body : List UInt8) : String :=
  let isControl := fun (c : Char) => c.toNat < 0x20 ∨ (0x7F ≤ c.toNat ∧ c.toNat < 0xA0)
  let trimmed := Text.trim ((Utf8.lossy body).filter fun c => !decide (isControl c))
  String.ofList (trimmed.take 160 ++ if 160 < trimmed.length then "...".toList else [])

def setHeader (h : HeaderMap) (name : HeaderName) (value : String) : HeaderMap :=
  match HeaderValue.fromStr value.toList with
  | some v => h.insert name v
  | none => h

/-- The monthly value of the pool. A value of 0 means "no monthly cap". -/
def monthText (snap : PoolSnapshot) (v : Option Nat) : String :=
  if 0 < snap.monthUnlimitedKeys then "0" else (v.map toString).getD "?"

def buildResponse (p : Pool) (now : Instant) (up : UpstreamResponse) (keyLabel : String)
    (attempts : Nat) : Pool × UpstreamResponse :=
  let h := up.headers.copy fun name => !stripResponseHeader name
  -- Replace the per-key rate-limit headers with a pool-wide view.
  let (p, snap) := p.snapshot now
  let h := setHeader h "x-ratelimit-limit"
    s!"{snap.rpsCapacity}, {monthText snap snap.monthLimitTotal}"
  let h := setHeader h "x-ratelimit-remaining"
    s!"{snap.slotsAvailableNow}, {monthText snap snap.monthRemainingTotal}"
  let h := setHeader h "x-rotator-key" keyLabel
  let h := setHeader h "x-rotator-attempts" (toString attempts)
  (p, { up with headers := h })

structure ClientRequest where
  method : String
  pathAndQuery : Option String
  headers : HeaderMap
  body : List Frame

/-- The first part of `proxy`: the request is turned away, or read. -/
def ClientRequest.accept (cfg : Config) (req : ClientRequest) : Except ErrorResponse Forward :=
  if authorized cfg req.headers then
    match collectLimited cfg.maxBodyBytes req.body with
    | .error e => .error (errorResponse 413 "body_too_large" e none)
    | .ok body => .ok
        { method := req.method, pathAndQuery := req.pathAndQuery.getD "/"
          headers := req.headers.copy fun name => !stripRequestHeader name, body }
  else .error (errorResponse 401 "unauthorized" "missing or wrong X-Proxy-Token" none)

def acquireFailed : AcquireError → ErrorResponse
  | .saturated retryAfter =>
    errorResponse 429 "rotator_saturated"
      s!"every key's per-second budget is spent; next slot in {Duration.asMillis retryAfter}ms"
      (some (Duration.asMillis retryAfter))
  | .unavailable retryAfter summary =>
    errorResponse 503 "no_usable_key" summary (retryAfter.map Duration.asMillis)

/-- What stays the same over the attempts for one client request. -/
structure Job where
  upstream : Upstream
  forward : Forward
  deadline : Instant
  maxAttempts : Nat

inductive Phase where
  | acquiring
  | sending (lease : Lease)
  | building (up : UpstreamResponse) (label : String)
  | answered (response : ProxyResponse)

/-- The variables of the retry loop of `proxy`, and the pool that it shares with others. -/
structure Session where
  pool : Pool
  tried : List Nat := []
  attempts : Nat := 0
  lastResponse : Option (UpstreamResponse × String) := none
  lastError : Option String := none
  phase : Phase := .acquiring

/-- Something else is done with the pool, or `proxy` comes to its next point: a turn of `acquire`, the
    end of `send`, `build_response`. -/
inductive ProxyEvent where
  | others (c : Call)
  | tries (now : Instant)
  | replies (now : Instant) (x : Exchange)
  | builds (now : Instant)

def UpstreamResponse.outcome (up : UpstreamResponse) : Outcome :=
  .response up.status (RateLimitInfo.fromHeaders up.headers)
    (if 200 ≤ up.status ∧ up.status ≤ 299 then none else some (snippet up.body))

namespace Session

/-- The head of the loop once an attempt has failed, and what comes after the loop. -/
def next (s : Session) (job : Job) : Session :=
  if s.attempts < job.maxAttempts then { s with phase := .acquiring }
  else
    match s.lastResponse with
    | some (up, label) => { s with phase := .building up label }
    | none =>
      { s with
        phase := .answered (.error (errorResponse 502 "upstream_unreachable"
          (s.lastError.getD "no attempt could be made") none)) }

def attempt (s : Session) (job : Job) (now : Instant) : Session :=
  match s.pool.acquireTurn now { made := now, deadline := job.deadline, request := s.tried } with
  | (p, .sleeps _) => { s with pool := p }
  | (p, .ends (.ok lease)) =>
    { s with
      pool := p, attempts := s.attempts + 1, tried := s.tried ++ [lease.idx]
      phase := .sending lease }
  | (p, .ends (.error e)) => { s with pool := p, phase := .answered (.error (acquireFailed e)) }

def receive (s : Session) (job : Job) (now : Instant) (lease : Lease) :
    Except UpstreamError UpstreamResponse → Session
  | .ok up =>
    let (p, verdict) := s.pool.record now lease.idx up.outcome
    match verdict with
    | .ok => { s with pool := p, phase := .building up lease.label }
    | .returnToClient => { s with pool := p, phase := .building up lease.label }
    | .retryOtherKey => { s with pool := p, lastResponse := some (up, lease.label) }.next job
  | .error e =>
    let (p, _) := s.pool.record now lease.idx (.transport e.text)
    { s with pool := p, lastError := some e.text }.next job

def step (job : Job) (s : Session) : ProxyEvent → Session
  | .others c => { s with pool := s.pool.step c }
  | .tries now =>
    match s.phase with
    | .acquiring => s.attempt job now
    | _ => s
  | .replies now x =>
    match s.phase with
    | .sending lease => s.receive job now lease (job.upstream.send job.forward lease.token x)
    | _ => s
  | .builds now =>
    match s.phase with
    | .building up label =>
      let (p, up) := buildResponse s.pool now up label s.attempts
      { s with pool := p, phase := .answered (.forwarded up) }
    | _ => s

end Session

/-- The second part of `proxy`, started on the pool. -/
def Forward.job (r : Forward) (cfg : Config) (upstream : Upstream) (p : Pool) (started : Instant) :
    Job where
  upstream := upstream
  forward := r
  deadline := started + cfg.maxQueueWait
  maxAttempts := max 2 (min p.keys.length 5)

/-- The upstream that `run` builds, on top of the `http` crate. -/
def Config.upstream (cfg : Config) (uriError : String → Option String) : Upstream where
  base := cfg.upstreamBase
  timeout := cfg.upstreamTimeout
  maxBody := cfg.maxBodyBytes
  uriError := uriError

end BraveRotator
