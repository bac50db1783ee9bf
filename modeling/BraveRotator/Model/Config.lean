import BraveRotator.Lib.Net
import BraveRotator.Lib.Text
import BraveRotator.Model.Pool

namespace BraveRotator

open Net

/-- `std::env::var(name).ok()` -/
abbrev Env := String → Option String

/-- The parts of a parsed URL that are looked at. -/
structure Uri where
  scheme : Option String
  authority : Option String

/-- What `from_env` takes from outside: the parsers of addresses and URLs, and how `{:?}` shows text. -/
structure EnvHost where
  parseSocketAddr : List Char → Except String SocketAddr
  parseUri : List Char → Except String Uri
  debug : String → String

/-- `SocketAddr` is the standard library's, `Uri` the `http` crate's. -/
def EnvHost.std (parseUri : List Char → Except String Uri) (debug : String → String) : EnvHost where
  parseSocketAddr := SocketAddr.parse
  parseUri := parseUri
  debug := debug

structure Config where
  /-- Tokens to rotate between (deduplicated, in the order given). -/
  keys : List String
  duplicateKeys : Nat
  listen : SocketAddr
  upstreamBase : String
  upstreamTimeout : Duration
  maxQueueWait : Duration
  reportInterval : Duration
  windowMargin : Duration
  defaultRpsPerKey : Text.UpTo u32Max
  maxBodyBytes : Nat
  proxyToken : Option String
  workerThreads : Nat
  accessLog : Bool
  /-- Positional, matches `keys`. -/
  monthlyLimits : List (Option Nat)

namespace Config

def isBlank (s : String) : Bool := (Text.trim s.toList).isEmpty

def firstEnv (env : Env) (names : List String) : Option String :=
  names.findSome? fun n => (env n).filter (!isBlank ·)

def envOr (env : Env) (name default : String) : String :=
  ((env name).filter (!isBlank ·)).getD default

section Parse

variable (host : EnvHost) (env : Env)

def parseEnv {α : Type} (parse : List Char → Except String α) (name default : String) :
    Except String α :=
  let raw := envOr env name default
  (parse (Text.trim raw.toList)).mapError fun e => s!"{name}={host.debug raw} is invalid: {e}"

/-- `T::from_str` of an unsigned type with values up to `max`. -/
def fromStr (max : Nat) (s : List Char) : Except String (Text.UpTo max) :=
  (Text.parseUnsigned max s).mapError Text.ParseIntError.text

def parseBool (name : String) (default : Bool) : Except String Bool :=
  let raw := envOr env name (if default then "true" else "false")
  let word := String.ofList ((Text.trim raw.toList).map Char.toLower)
  if ["1", "true", "yes", "on"].contains word then .ok true
  else if ["0", "false", "no", "off"].contains word then .ok false
  else .error s!"{name}={host.debug raw} is invalid: expected true or false"

end Parse

/-- The text between the separators of `BRAVE_API_KEYS`. -/
def splitKeys (raw : List Char) : List (List Char) :=
  raw.splitOnP fun c => c = ',' || c = ';' || Text.isWhitespace c

/-- The body of the loop over the keys: those so far and the number of duplicates. -/
def addKey (acc : List String × Nat) (k : List Char) : List String × Nat :=
  let k := Text.trim k
  if k.isEmpty then acc
  else if acc.1.contains (String.ofList k) then (acc.1, acc.2 + 1)
  else (acc.1 ++ [String.ofList k], acc.2)

/-- One entry of `BRAVE_MONTHLY_LIMITS`. -/
def parseLimit (s : List Char) : Option Nat :=
  let s := Text.trim s
  if s.isEmpty || Text.eqIgnoreAsciiCase s "detect".toList then none
  else (Text.parseUnsigned u64Max s).toOption.map Subtype.val

def parseLimits (raw : String) : List (Option Nat) := (raw.toList.splitOnP (· = ',')).map parseLimit

def fromEnv (host : EnvHost) (env : Env) : Except String Config := do
  let raw := (firstEnv env ["BRAVE_API_KEYS", "BRAVE_KEYS"]).getD ""
  let (keys, duplicateKeys) := (splitKeys raw.toList).foldl addKey ([], 0)
  if keys.isEmpty then
    throw "BRAVE_API_KEYS is empty. Provide one or more comma-separated Brave Search API keys."
  let listen ← parseEnv host env host.parseSocketAddr "LISTEN_ADDR" "0.0.0.0:8080"
  let upstreamBase :=
    (envOr env "BRAVE_BASE_URL" "https://api.search.brave.com").toList.rdropWhile (· = '/')
  let uri ← (host.parseUri upstreamBase).mapError fun e => s!"BRAVE_BASE_URL is not a valid URL: {e}"
  if uri.scheme.isNone || uri.authority.isNone then
    throw "BRAVE_BASE_URL must include scheme and host, e.g. https://api.search.brave.com"
  let proxyToken := ((env "PROXY_TOKEN").map fun s => String.ofList (Text.trim s.toList)).filter
    (!·.isEmpty)
  let monthlyLimits :=
    (((env "BRAVE_MONTHLY_LIMITS").filter (!isBlank ·)).map parseLimits).getD []
  let upstreamTimeout ← parseEnv host env (fromStr u64Max) "UPSTREAM_TIMEOUT_MS" "15000"
  let maxQueueWait ← parseEnv host env (fromStr u64Max) "MAX_QUEUE_WAIT_MS" "5000"
  let reportInterval ← parseEnv host env (fromStr u64Max) "REPORT_INTERVAL_SECS" "60"
  let windowMargin ← parseEnv host env (fromStr u64Max) "WINDOW_MARGIN_MS" "100"
  let defaultRps ← parseEnv host env (fromStr u32Max) "DEFAULT_RPS_PER_KEY" "1"
  let maxBodyBytes ← parseEnv host env (fromStr u64Max) "MAX_BODY_BYTES" "4194304"
  let workerThreads ← parseEnv host env (fromStr u64Max) "WORKER_THREADS" "2"
  let accessLog ← parseBool host env "ACCESS_LOG" true
  return {
    keys, duplicateKeys, listen
    upstreamBase := String.ofList upstreamBase
    upstreamTimeout := .fromMillis upstreamTimeout.val
    maxQueueWait := .fromMillis maxQueueWait.val
    reportInterval := .fromSecs (max reportInterval.val 1)
    windowMargin := .fromMillis windowMargin.val
    defaultRpsPerKey := ⟨max defaultRps.val 1, max_le defaultRps.property (by decide)⟩
    maxBodyBytes := maxBodyBytes.val
    proxyToken
    workerThreads := max workerThreads.val 1
    accessLog, monthlyLimits }

theorem one_le_u32Max : 1 ≤ u32Max := by decide

/-- What there is without other variables than the keys. -/
def ofDefaults (keys : List String) : Config where
  keys := keys
  duplicateKeys := 0
  listen := .v4 0 8080
  upstreamBase := "https://api.search.brave.com"
  upstreamTimeout := .fromMillis 15000
  maxQueueWait := .fromMillis 5000
  reportInterval := .fromSecs 60
  windowMargin := .fromMillis 100
  defaultRpsPerKey := ⟨1, one_le_u32Max⟩
  maxBodyBytes := 4194304
  proxyToken := none
  workerThreads := 2
  accessLog := true
  monthlyLimits := []

/-- The pool that `run` builds. -/
def pool (cfg : Config) (host : Host) : Pool :=
  .new host cfg.keys
    { windowMargin := cfg.windowMargin, defaultRps := cfg.defaultRpsPerKey.val
      defaultRps_le := cfg.defaultRpsPerKey.property, monthlyLimits := cfg.monthlyLimits }

end Config

end BraveRotator
