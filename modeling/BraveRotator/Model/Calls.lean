import BraveRotator.Lib.Runs
import BraveRotator.Model.Snapshot

namespace BraveRotator

/-- One call under the mutex, with the clock reading it works on. -/
inductive Call where
  | tryAcquire (now : Instant) (exclude : List Nat)
  | record (now : Instant) (idx : Nat) (outcome : Outcome)
  | snapshot (now : Instant)

def Call.time : Call → Instant
  | .tryAcquire now _ => now
  | .record now _ _ => now
  | .snapshot now => now

def Call.recorded (i : Nat) : Call → Option Outcome
  | .record _ idx outcome => if idx = i then some outcome else none
  | _ => none

inductive Reply where
  | acquired (result : Except Next Lease)
  | recorded (verdict : Verdict)
  | observed (snapshot : PoolSnapshot)

def timesOf (i : Nat) (leases : List (Nat × Instant)) : List Instant :=
  (leases.filter (·.1 = i)).map Prod.snd

namespace Pool

def serve (p : Pool) : Call → Pool × Reply
  | .tryAcquire now exclude => ((p.tryAcquire now exclude).1, .acquired (p.tryAcquire now exclude).2)
  | .record now idx outcome => ((p.record now idx outcome).1, .recorded (p.record now idx outcome).2)
  | .snapshot now => ((p.snapshot now).1, .observed (p.snapshot now).2)

def step (p : Pool) (c : Call) : Pool := (p.serve c).1

def granted (p : Pool) (c : Call) : Option Lease :=
  match (p.serve c).2 with
  | .acquired (.ok lease) => some lease
  | _ => none

def leased (p : Pool) (c : Call) : Option Nat := (p.granted c).map Lease.idx

def after (p : Pool) (cs : List Call) : Pool := Runs.exec step p cs

def leases (p : Pool) (cs : List Call) : List (Nat × Instant) :=
  Runs.collect step (fun p c => (p.leased c).map (·, c.time)) p cs

def turns (p : Pool) (cs : List Call) : List Nat := Runs.collect step leased p cs

def grants (i : Nat) (p : Pool) (cs : List Call) : List Instant := timesOf i (p.leases cs)

/-- A pool as the source's tests set it up, started at the epoch and without formatters. -/
def ofTests (keys : List String) (monthlyLimits : List (Option Nat)) : Pool :=
  new { bootTime := 0, formatDuration := fun _ => "", formatRfc3339Seconds := fun _ => "" } keys
    { windowMargin := .fromMillis 100, defaultRps := 1, monthlyLimits }

end Pool

end BraveRotator
