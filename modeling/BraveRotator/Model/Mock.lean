import BraveRotator.Lib.Runs
import BraveRotator.Model.Headers
import BraveRotator.Model.Time
import Mathlib.Logic.Function.Basic

namespace BraveRotator

/-- A dictionary whose values are numbers, 0 for a missing key. -/
abbrev Counts := List (String × Nat)

namespace Counts

variable (d : Counts)

def get (key : String) : Nat := (d.lookup key).getD 0

/-- A new key comes last. -/
def set (key : String) (n : Nat) : Counts :=
  if d.any (·.1 = key) then d.map fun entry => if entry.1 = key then (key, n) else entry
  else d ++ [(key, n)]

end Counts

/-- The stand-in for Brave that the end-to-end check is run against. -/
structure Mock where
  /-- Requests per second and key. -/
  rps : Nat
  /-- Successful requests per month and key, 0 for unlimited. -/
  month : Nat
  monthResetAt : Instant
  /-- The timestamps inside the sliding window of a key. -/
  sends : String → List Instant := fun _ => []
  /-- Successful requests of a key in this month. -/
  used : Counts := []
  calls : String → Nat := fun _ => 0
  perStatus : Counts := []

structure MockRequest where
  now : Instant
  key : Option String
  path : String
  method : String := "GET"
  deriving DecidableEq

inductive MockBody where
  | error (detail : String)
  | search (servedByKey path : String)
  | stats (perStatus usedPerKey : Counts)
  | unsupported (method : String)
  deriving DecidableEq

structure MockReply where
  status : Nat
  body : MockBody
  headers : List (HeaderName × String) := []
  deriving DecidableEq

namespace Mock

variable (m : Mock)

def window : Duration := .fromSecs 1

def monthWindow : Nat := 2592000

/-- The last four characters of a key. -/
def tail (key : String) : String := String.ofList (key.toList.reverse.take 4).reverse

def rlHeaders (key : String) (now : Instant) : List (HeaderName × String) :=
  let q := m.sends key
  let secRemaining := m.rps - q.length
  -- `math.ceil` of the seconds until the oldest timestamp has left the window
  let secReset := (q.head?.map fun first => max 1 ((first + window - now + 999999999) / 1000000000)).getD 1
  let monthRemaining := if m.month = 0 then 0 else m.month - m.used.get key
  let monthReset := ((m.monthResetAt : Int) - now).tdiv 1000000000
  [("x-ratelimit-limit", s!"{m.rps}, {m.month}"),
    ("x-ratelimit-policy", s!"{m.rps};w=1, {m.month};w={monthWindow}"),
    ("x-ratelimit-remaining", s!"{secRemaining}, {monthRemaining}"),
    ("x-ratelimit-reset", s!"{secReset}, {monthReset}")]

def isBad (key : String) : Bool := key.isEmpty || "bad".toList.isPrefixOf key.toList

def isFlaky (key : String) : Bool := "flaky".toList.isPrefixOf key.toList

def usedPerKey : Counts := m.used.foldl (fun d entry => d.set (tail entry.1) entry.2) []

/-- The check of the month looks the key up, which enters it. -/
def lookedUp (key : String) : Counts := if m.month = 0 then m.used else m.used.set key (m.used.get key)

/-- The part of `handle_any` under the lock. -/
def limit (now : Instant) (key path : String) : Mock × MockReply :=
  let m := { m with calls := Function.update m.calls key (m.calls key + 1) }
  if isFlaky key && m.calls key % 2 = 0 then
    (m, { status := 500, body := .error "mock internal error" })
  else
    let m := { m with
      sends := Function.update m.sends key ((m.sends key).dropWhile fun t => t + window ≤ now)
      used := m.lookedUp key }
    if m.month ≠ 0 && m.month ≤ m.used.get key then
      (m, { status := 429, body := .error "Monthly quota exceeded", headers := m.rlHeaders key now })
    else if m.rps ≤ (m.sends key).length then
      (m, { status := 429, body := .error "Rate limit exceeded", headers := m.rlHeaders key now })
    else
      let m := { m with
        sends := Function.update m.sends key (m.sends key ++ [now])
        used := m.used.set key (m.used.get key + 1) }
      (m, { status := 200, body := .search (tail key) path, headers := m.rlHeaders key now })

def answer (r : MockRequest) : Mock × MockReply :=
  if "/mock/stats".toList.isPrefixOf r.path.toList then
    (m, { status := 200, body := .stats m.perStatus m.usedPerKey })
  else
    match r.key.filter (!isBad ·) with
    | none => (m, { status := 401, body := .error "Invalid subscription token" })
    | some key => m.limit r.now key r.path

/-- `handle_any`, each `reply` counted. -/
def handleAny (r : MockRequest) : Mock × MockReply :=
  let (m, reply) := m.answer r
  let status := toString reply.status
  ({ m with perStatus := m.perStatus.set status (m.perStatus.get status + 1) }, reply)

/-- Only `do_GET` and `do_POST` are there. -/
def handle (r : MockRequest) : Mock × MockReply :=
  if r.method = "GET" ∨ r.method = "POST" then m.handleAny r
  else (m, { status := 501, body := .unsupported r.method })

def step (r : MockRequest) : Mock := (m.handle r).1

def after (rs : List MockRequest) : Mock := Runs.exec step m rs

def replies (rs : List MockRequest) : List MockReply :=
  Runs.collect step (fun m r => some (m.handle r).2) m rs

/-- As started. -/
def new (rps month : Nat) (started : Instant) : Mock :=
  { rps, month, monthResetAt := started + Duration.fromSecs (16 * 86400) }

end Mock

/-- A second request within a second is one too many. -/
example : ((Mock.new 1 0 0).replies [
    { now := 0, key := some "key", path := "/" },
    { now := 999999999, key := some "key", path := "/" },
    { now := 1000000000, key := some "key", path := "/" },
    { now := 1000000000, key := none, path := "/mock/stats" }]).map (fun r => (r.status, r.body)) =
      [(200, .search "key" "/"), (429, .error "Rate limit exceeded"), (200, .search "key" "/"),
        (200, .stats [("200", 2), ("429", 1)] [("key", 2)])] := by decide

end BraveRotator
