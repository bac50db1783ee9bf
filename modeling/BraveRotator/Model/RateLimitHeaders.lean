import BraveRotator.Model.Headers
import BraveRotator.Model.RateLimit

namespace BraveRotator

/-- `parse::<u64>().ok()` -/
def parseU64 (s : List Char) : Option Nat := (Text.parseUnsigned u64Max s).toOption.map Subtype.val

/-- The first two parts of a comma-separated list, as `part` reads them. -/
def windowsOf (part : List Char → Option Nat) (v : List Char) : Windows :=
  let parts := (v.splitOnP (· = ',')).map part
  { second := parts[0]?.join, month := parts[1]?.join }

/-- Parses `"1, 15000"` (tolerating `"1;w=1, 15000;w=2592000"` and single values). -/
def parseWindows (v : List Char) : Windows :=
  windowsOf (fun p => parseU64 (Text.trim (((Text.trim p).splitOnP (· = ';')).headD []))) v

/-- Parses the `w=` window sizes out of `"1;w=1, 15000;w=2592000"`. -/
def parsePolicyWindows (v : List Char) : Windows :=
  windowsOf (fun p =>
    (((p.splitOnP (· = ';')).map Text.trim).findSome? fun kv => "w=".toList.isPrefixOf? kv).bind
      fun w => parseU64 (Text.trim w)) v

/-- `none` when the response carries no `X-RateLimit-*` header at all. -/
def RateLimitInfo.fromHeaders (h : HeaderMap) : Option RateLimitInfo :=
  let get := fun (name : HeaderName) => (h.get? name).bind HeaderValue.toStr
  let limit := get "x-ratelimit-limit"
  let remaining := get "x-ratelimit-remaining"
  let reset := get "x-ratelimit-reset"
  let policy := get "x-ratelimit-policy"
  if limit.isNone && remaining.isNone && reset.isNone && policy.isNone then none
  else some
    { limit := (limit.map parseWindows).getD {}
      remaining := (remaining.map parseWindows).getD {}
      reset := (reset.map parseWindows).getD {}
      window := (policy.map parsePolicyWindows).getD {}
      retryAfter := (get "retry-after").bind fun v => parseU64 (Text.trim v) }

example : parsePolicyWindows "1;w=1, 15000;w=2592000".toList =
    { second := some 1, month := some 2592000 } := by decide

end BraveRotator
