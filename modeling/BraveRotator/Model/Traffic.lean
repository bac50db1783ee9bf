import BraveRotator.Model.Calls

namespace BraveRotator

/-- A lease whose outcome has not been recorded. The number tells apart leases of one key. -/
structure Flight where
  id : Nat
  lease : Lease

/-- The pool and the requests that are out with one of its leases. -/
structure Traffic where
  pool : Pool
  flights : List Flight := []
  issued : Nat := 0

/-- A client asks for a key, an outcome comes in for a lease, or somebody looks at the pool. -/
inductive Event where
  | acquire (now : Instant) (exclude : List Nat)
  | answer (now : Instant) (id : Nat) (outcome : Outcome)
  | observe (now : Instant)

def Event.time : Event → Instant
  | .acquire now _ => now
  | .answer now _ _ => now
  | .observe now => now

namespace Traffic

def new (host : Host) (keys : List String) (cfg : PoolConfig) : Traffic :=
  { pool := Pool.new host keys cfg }

def flight (t : Traffic) (id : Nat) : Option Flight := t.flights.find? (·.id = id)

/-- The call under the mutex that an event comes to; a lease is answered once. -/
def call (t : Traffic) : Event → Option Call
  | .acquire now exclude => some (.tryAcquire now exclude)
  | .answer now id outcome => (t.flight id).map fun f => .record now f.lease.idx outcome
  | .observe now => some (.snapshot now)

def step (t : Traffic) : Event → Traffic
  | .acquire now exclude =>
    let (pool, result) := t.pool.tryAcquire now exclude
    match result with
    | .ok lease =>
      { pool, flights := t.flights ++ [⟨t.issued, lease⟩], issued := t.issued + 1 }
    | .error _ => { t with pool }
  | .answer now id outcome =>
    match t.flight id with
    | some f =>
      { t with
        pool := (t.pool.record now f.lease.idx outcome).1
        flights := t.flights.filter (·.id ≠ id) }
    | none => t
  | .observe now => { t with pool := (t.pool.snapshot now).1 }

def after (t : Traffic) (es : List Event) : Traffic := Runs.exec step t es

def leased (t : Traffic) (e : Event) : Option Nat := (t.call e).bind t.pool.leased

def recorded (i : Nat) (t : Traffic) (e : Event) : Option Outcome :=
  (t.call e).bind (Call.recorded i)

def key? (t : Traffic) (i : Nat) : Option KeyState := t.pool.keys[i]?

def inFlight (i : Nat) (t : Traffic) : Nat := t.flights.countP fun f => f.lease.idx = i

def ofTests (keys : List String) (monthlyLimits : List (Option Nat)) : Traffic :=
  { pool := Pool.ofTests keys monthlyLimits }

end Traffic

end BraveRotator
