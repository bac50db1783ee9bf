import BraveRotator.Model.Time

namespace BraveRotator

/-- One value per limit window. -/
structure Windows where
  second : Option Nat := none
  month : Option Nat := none
  deriving DecidableEq, Repr

structure RateLimitInfo where
  limit : Windows := {}
  remaining : Windows := {}
  reset : Windows := {}
  window : Windows := {}
  retryAfter : Option Nat := none
  deriving DecidableEq, Repr

namespace RateLimitInfo

/-- A monthly limit of 0 means unlimited. -/
def monthExhausted (rl : RateLimitInfo) : Bool :=
  if rl.limit.month = some 0 then false else rl.remaining.month = some 0

/-- How long to hold a key after a per-second 429. -/
def secondWait (rl : RateLimitInfo) : Duration :=
  .fromSecs (max 1 (min 60 (max (rl.reset.second.getD 1) (rl.retryAfter.getD 0))))

def monthReset (rl : RateLimitInfo) : Option Duration := rl.reset.month.map .fromSecs

theorem le_secondWait (rl : RateLimitInfo) : .fromSecs 1 ≤ rl.secondWait := by
  unfold secondWait Duration.fromSecs
  lia

theorem secondWait_le (rl : RateLimitInfo) : rl.secondWait ≤ .fromSecs 60 := by
  unfold secondWait Duration.fromSecs
  lia

end RateLimitInfo

end BraveRotator
