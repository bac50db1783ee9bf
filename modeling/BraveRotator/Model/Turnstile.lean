import BraveRotator.Lib.Turnstile
import BraveRotator.Model.Acquire
import BraveRotator.Model.Calls

namespace BraveRotator

/-- A call of `acquire`: when it was made, its deadline, and the keys it excludes. -/
abbrev AcquireCall := Turnstile.Ticket (List Nat)

abbrev Queueing := Turnstile.State Pool (List Nat) (Except AcquireError Lease)

/-- An `acquire` is called, its sleep ends, or something else is done with the pool. -/
abbrev QueueEvent := Turnstile.Event Call (List Nat)

namespace Pool

/-- One turn of the loop in `acquire`. -/
def acquireTurn (p : Pool) (now : Instant) (c : AcquireCall) :
    Pool × Turnstile.Turn (Except AcquireError Lease) :=
  match p.tryAcquire now c.request with
  | (p, .ok lease) => (p, .ends (.ok lease))
  | (p, .error (.at at')) =>
    if c.deadline < at' then (p, .ends (.error (.saturated (saturatingDurationSince at' now))))
    else (p, .sleeps at')
  | (p, .error (.unavailable earliest summary)) =>
    (p, .ends (.error (.unavailable (earliest.map (saturatingDurationSince · now)) summary)))

/-- The pool and its turnstile after a run. -/
def queueing (p : Pool) (es : List QueueEvent) : Queueing :=
  Runs.exec (Turnstile.step acquireTurn step) (.free p) es

end Pool

end BraveRotator
