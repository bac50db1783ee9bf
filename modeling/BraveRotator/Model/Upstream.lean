import BraveRotator.Model.Headers
import BraveRotator.Model.Time

namespace BraveRotator

/-- What of a client's request is passed on. -/
structure Forward where
  method : String
  pathAndQuery : String
  headers : HeaderMap
  body : List UInt8
  deriving DecidableEq

structure UpstreamRequest where
  method : String
  uri : String
  headers : HeaderMap
  body : List UInt8
  deriving DecidableEq

structure UpstreamResponse where
  status : Nat
  headers : HeaderMap
  body : List UInt8
  deriving DecidableEq

inductive UpstreamError where
  | timeout (after : Duration)
  | request (e : String)
  | body (e : String)
  deriving DecidableEq, Repr

def UpstreamError.text : UpstreamError → String
  | .timeout d => s!"upstream timed out after {Duration.asMillis d}ms"
  | .request e => s!"upstream request failed: {e}"
  | .body e => s!"upstream body error: {e}"

/-- What comes of a request on the wire: the head of a response and the pieces of its body. -/
structure Exchange where
  head : Except String (Nat × HeaderMap)
  frames : List Frame
  /-- All of it is there before the timeout. -/
  inTime : Bool

structure Upstream where
  base : String
  timeout : Duration
  maxBody : Nat
  /-- What the `http` crate finds wrong with a request to the address. -/
  uriError : String → Option String

namespace Upstream

variable (u : Upstream)

/-- The part of `send` that builds the request, with `key` as the subscription token. -/
def request (r : Forward) (key : String) : Except UpstreamError UpstreamRequest :=
  let uri := u.base ++ r.pathAndQuery
  match u.uriError uri with
  | some e => .error (.request s!"invalid request for {uri}: {e}")
  | none =>
    let h := r.headers.copy fun _ => true
    match HeaderValue.fromStr key.toList with
    | none => .error (.request "key contains invalid header characters")
    | some token =>
      let h := h.insert "x-subscription-token" token
      let h := if h.contains "accept" then h
        else h.insert "accept" (HeaderValue.utf8 "application/json".toList)
      let h := if h.contains "user-agent" then h
        else h.insert "user-agent" (HeaderValue.utf8 "brave-rotator/0.1.0".toList)
      .ok { method := r.method, uri, headers := h, body := r.body }

/-- The part of `send` that waits for the response. -/
def receive (x : Exchange) : Except UpstreamError UpstreamResponse :=
  if x.inTime then
    match x.head with
    | .error e => .error (.request e)
    | .ok (status, headers) =>
      match collectLimited u.maxBody x.frames with
      | .error e => .error (.body e)
      | .ok body => .ok { status, headers, body }
  else .error (.timeout u.timeout)

/-- Forwards one request. Never retries. -/
def send (r : Forward) (key : String) (x : Exchange) : Except UpstreamError UpstreamResponse :=
  match u.request r key with
  | .error e => .error e
  | .ok _ => u.receive x

end Upstream

end BraveRotator
