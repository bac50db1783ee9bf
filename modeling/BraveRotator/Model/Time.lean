import Mathlib.Data.List.MinMax
import Mathlib.Data.Prod.Lex
import Mathlib.Tactic.Common

namespace BraveRotator

/-- Nanoseconds. -/
abbrev Duration := Nat

/-- Nanoseconds since the zero of the monotonic clock. -/
abbrev Instant := Nat

namespace Duration

def fromSecs (secs : Nat) : Duration := secs * 1000000000
def fromMillis (millis : Nat) : Duration := millis * 1000000
def asSecs (d : Duration) : Nat := d / 1000000000
def asMillis (d : Duration) : Nat := d / 1000000

end Duration

/-- Truncated subtraction of naturals is the saturation. -/
def saturatingDurationSince (now earlier : Instant) : Duration := now - earlier

def u32Max : Nat := 4294967295
def u64Max : Nat := 18446744073709551615
def i64Max : Nat := 9223372036854775807

/-- An `as u32` cast, and `+= 1` on a `u32` in the release profile. -/
def wrapU32 (n : Nat) : Nat := n % 4294967296

/-- An `as u64` cast, and `+` on `u64` in the release profile. -/
def wrapU64 (n : Nat) : Nat := n % 18446744073709551616

/-- Brave's burst window, `WINDOW`. -/
def braveWindow : Duration := .fromSecs 1

def failThreshold : Nat := 3
def failBackoffBase : Duration := .fromSecs 30
def failBackoffMax : Duration := .fromSecs (10 * 60)
def authBackoffBase : Duration := .fromSecs (5 * 60)
def authBackoffMax : Duration := .fromSecs (60 * 60)
def unexplained429Threshold : Nat := 5
def unexplained429Backoff : Duration := .fromSecs (5 * 60)
/-- Used when Brave says the month is exhausted but not when it resets. -/
def exhaustedFallback : Duration := .fromSecs (6 * 60 * 60)
def overrideCapFallback : Duration := .fromSecs (30 * 24 * 60 * 60)
def maxLearnedRps : Nat := 1000

/-- What `fmt_dur` and `fmt_instant` take from outside: the wall-clock time of the monotonic
    zero, in nanoseconds since the epoch, and the two formatters of `humantime`. -/
structure Host where
  bootTime : Nat
  formatDuration : Nat → String
  formatRfc3339Seconds : Nat → String

namespace Host

def fmtDur (host : Host) (d : Duration) : String := host.formatDuration d.asSecs

def wallClock (host : Host) (i : Instant) : Nat := host.bootTime + i

/-- `SystemTime` holds its seconds in an `i64`; past that `checked_add` gives `None`. -/
def fmtInstant (host : Host) (i : Instant) : String :=
  if Duration.asSecs (host.wallClock i) ≤ i64Max then host.formatRfc3339Seconds (host.wallClock i)
  else ""

end Host

end BraveRotator
