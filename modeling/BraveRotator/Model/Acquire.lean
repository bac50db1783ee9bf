import BraveRotator.Model.Pool

namespace BraveRotator

/-- The loop of `acquire`, the turnstile taken: the final pool, the instant of the last attempt and
    what is returned. Each sleep ends at the instant asked for; `none` when the fuel runs out. -/
def Pool.acquire (deadline : Instant) (exclude : List Nat) :
    Nat → Pool → Instant → Option (Pool × Instant × Except AcquireError Lease)
  | 0, _, _ => none
  | fuel + 1, p, now =>
    match p.tryAcquire now exclude with
    | (p, .ok lease) => some (p, now, .ok lease)
    | (p, .error (.at at')) =>
      if deadline < at' then some (p, now, .error (.saturated (saturatingDurationSince at' now)))
      else acquire deadline exclude fuel p (max now at')
    | (p, .error (.unavailable earliest summary)) =>
      some (p, now, .error (.unavailable (earliest.map (saturatingDurationSince · now)) summary))

end BraveRotator
