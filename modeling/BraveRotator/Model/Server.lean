import BraveRotator.Model.Handlers

namespace BraveRotator

/-- The variables of a `proxy` call that it does not share. -/
structure Client where
  job : Job
  tried : List Nat := []
  attempts : Nat := 0
  lastResponse : Option (UpstreamResponse × String) := none
  lastError : Option String := none
  phase : Phase := .acquiring

namespace Client

def session (c : Client) (p : Pool) : Session :=
  { pool := p, tried := c.tried, attempts := c.attempts, lastResponse := c.lastResponse
    lastError := c.lastError, phase := c.phase }

def resume (c : Client) (s : Session) : Client :=
  { c with
    tried := s.tried, attempts := s.attempts, lastResponse := s.lastResponse
    lastError := s.lastError, phase := s.phase }

def waits (c : Client) : Bool :=
  match c.phase with
  | .acquiring => true
  | _ => false

def sending? (c : Client) : Option Lease :=
  match c.phase with
  | .sending lease => some lease
  | _ => none

def answer? (c : Client) : Option ProxyResponse :=
  match c.phase with
  | .answered response => some response
  | _ => none

end Client

/-- The mutex behind the turnstile. Released, it goes to one of those who wait for it, who are then in
    this order. -/
structure Mutex where
  handover : List Nat → List Nat
  handover_perm : ∀ waiting, (handover waiting).Perm waiting

namespace Mutex

/-- It goes to whoever has waited longest. -/
def Fair (m : Mutex) : Prop := ∀ waiting, m.handover waiting = waiting

def fifo : Mutex := ⟨id, fun _ => .refl _⟩

theorem fair_fifo : fifo.Fair := fun _ => rfl

end Mutex

/-- The process that `run` starts: the shared state, and the `proxy` calls in it. -/
structure Server where
  cfg : Config
  upstream : Upstream
  started : Instant
  pool : Pool
  turnstile : Mutex
  /-- In the order of arrival. A call that is dropped, its connection gone, leaves a gap. -/
  clients : List (Option Client) := []
  /-- The calls in `acquire`, the one that holds the turnstile first. -/
  line : List Nat := []
  /-- Until when the holder sleeps. -/
  asleep : Instant := 0

/-- A request comes in, or the `proxy` call for one comes to its next point, or is dropped; or the
    reporter looks at the pool. -/
inductive ServerEvent where
  | arrives (now : Instant) (req : ClientRequest)
  | tries (now : Instant)
  | replies (now : Instant) (i : Nat) (x : Exchange)
  | builds (now : Instant) (i : Nat)
  | drops (now : Instant) (i : Nat)
  | reports (now : Instant)

def ServerEvent.time : ServerEvent → Instant
  | .arrives now _ => now
  | .tries now => now
  | .replies now _ _ => now
  | .builds now _ => now
  | .drops now _ => now
  | .reports now => now

/-- What leaves the process: an answer to a request, or a report. -/
inductive Output where
  | refused (e : ErrorResponse)
  | status (reply : Except ErrorResponse StatusReply)
  | health (reply : HealthReply)
  | methodNotAllowed
  /-- The answer of the `proxy` call with the number. -/
  | answered (i : Nat) (response : ProxyResponse)
  | reported (lines : List String)

namespace Server

variable (s : Server)

def client? (i : Nat) : Option Client := (s.clients[i]?).join

/-- The call `i` makes its next move. -/
def follow (i : Nat) (c : Client) (e : ProxyEvent) : Server :=
  let t := Session.step c.job (c.session s.pool) e
  { s with pool := t.pool, clients := s.clients.set i (some (c.resume t)) }

/-- A request that `proxy` takes goes straight to the turnstile. -/
def enter (now : Instant) (req : ClientRequest) : Server :=
  match req.accept s.cfg with
  | .error _ => s
  | .ok r =>
    { s with
      clients := s.clients ++ [some { job := r.job s.cfg s.upstream s.pool now }]
      line := s.line ++ [s.clients.length] }

def arrive (now : Instant) (req : ClientRequest) : Server :=
  match route req with
  | .proxy => s.enter now req
  | .status => { s with pool := (status s.cfg s.started s.pool now req.headers).1 }
  | .health => { s with pool := (health s.pool now).1 }
  | .methodNotAllowed => s

/-- Who holds the turnstile and is awake. -/
def holder? (now : Instant) : Option (Nat × Client) :=
  if s.asleep ≤ now then (s.line.head?).bind fun i => (s.client? i).map (i, ·) else none

/-- One turn of the loop in `acquire`. The turnstile is handed on when the call is through. -/
def attempt (now : Instant) (i : Nat) (c : Client) : Server :=
  let call : AcquireCall := { made := now, deadline := c.job.deadline, request := c.tried }
  match (s.pool.acquireTurn now call).2 with
  | .sleeps u => { s.follow i c (.tries now) with asleep := u }
  | .ends _ =>
    { s.follow i c (.tries now) with line := s.turnstile.handover s.line.tail, asleep := 0 }

/-- The end of `send`, after which the retry loop may come back to the turnstile. -/
def answer (now : Instant) (i : Nat) (c : Client) (x : Exchange) : Server :=
  let s' := s.follow i c (.replies now x)
  if (s'.client? i).any Client.waits then { s' with line := s'.line ++ [i] } else s'

def drop (i : Nat) : Server :=
  let s' := { s with clients := s.clients.set i none }
  if s.line.head? = some i then { s' with line := s.turnstile.handover s.line.tail, asleep := 0 }
  else { s' with line := s.line.filter (· ≠ i) }

def step : ServerEvent → Server
  | .arrives now req => s.arrive now req
  | .tries now =>
    match s.holder? now with
    | some (i, c) => s.attempt now i c
    | none => s
  | .replies now i x =>
    match (s.client? i).filter (·.sending?.isSome) with
    | some c => s.answer now i c x
    | none => s
  | .builds now i =>
    match s.client? i with
    | some c => s.follow i c (.builds now)
    | none => s
  | .drops _ i => s.drop i
  | .reports now => { s with pool := (s.pool.snapshot now).1 }

/-- The answer that the call `i` comes to with its next move. -/
def ending? (i : Nat) (c : Client) (e : ProxyEvent) : Option Output :=
  if c.answer?.isSome then none
  else (c.resume (Session.step c.job (c.session s.pool) e)).answer?.map (.answered i)

/-- What is sent out right away when a request comes in. -/
def reply? (now : Instant) (req : ClientRequest) : Option Output :=
  match route req with
  | .proxy =>
    match req.accept s.cfg with
    | .error e => some (.refused e)
    | .ok _ => none
  | .status => some (.status (status s.cfg s.started s.pool now req.headers).2)
  | .health => some (.health (health s.pool now).2)
  | .methodNotAllowed => some .methodNotAllowed

/-- What leaves the process with an event. -/
def output? : ServerEvent → Option Output
  | .arrives now req => s.reply? now req
  | .tries now => (s.holder? now).bind fun (i, c) => s.ending? i c (.tries now)
  | .replies now i x =>
    ((s.client? i).filter (·.sending?.isSome)).bind fun c => s.ending? i c (.replies now x)
  | .builds now i => (s.client? i).bind fun c => s.ending? i c (.builds now)
  | .drops .. => none
  | .reports now => some (.reported (report (s.pool.snapshot now).2))

def after (es : List ServerEvent) : Server := Runs.exec step s es

def outputs (es : List ServerEvent) : List Output := Runs.collect step output? s es

/-- The process as `run` starts it, on top of the `http` and `tokio` crates. -/
def new (turnstile : Mutex) (host : Host) (uriError : String → Option String) (cfg : Config)
    (started : Instant) : Server :=
  { cfg, upstream := cfg.upstream uriError, started, pool := cfg.pool host, turnstile }

/-- A process with the default settings, started at the epoch and without formatters. -/
def ofTests (keys : List String) : Server :=
  new .fifo { bootTime := 0, formatDuration := fun _ => "", formatRfc3339Seconds := fun _ => "" }
    (fun _ => none) (Config.ofDefaults keys) 0

end Server

/-- A request without headers and body. -/
def ClientRequest.ofTests (pathAndQuery : String) : ClientRequest where
  method := "GET"
  pathAndQuery := some pathAndQuery
  headers := ⟨[], List.nodup_nil⟩
  body := []

end BraveRotator
