import BraveRotator.Lib.Runs
import BraveRotator.Model.Proxy
import BraveRotator.Pool.Step

namespace BraveRotator

namespace Session

section Reads

variable (job : Job) (s : Session)

/-- The result of `send` that the session waits for, if it gets one. -/
def sent? : ProxyEvent → Option (Instant × Lease × Except UpstreamError UpstreamResponse)
  | .replies now x =>
    match s.phase with
    | .sending lease => some (now, lease, job.upstream.send job.forward lease.token x)
    | _ => none
  | _ => none

def outcomeOf : Except UpstreamError UpstreamResponse → Outcome
  | .ok up => up.outcome
  | .error e => .transport e.text

/-- The call under the pool's mutex that the session makes itself. -/
def call? (e : ProxyEvent) : Option Call :=
  match e with
  | .others _ => none
  | .tries now =>
    match s.phase with
    | .acquiring => some (.tryAcquire now s.tried)
    | _ => none
  | .replies .. => (s.sent? job e).map fun (now, lease, result) => .record now lease.idx (outcomeOf result)
  | .builds now =>
    match s.phase with
    | .building .. => some (.snapshot now)
    | _ => none

def leased? (e : ProxyEvent) : Option Nat := (s.call? job e).bind s.pool.leased

def recorded? (e : ProxyEvent) : Option Nat :=
  match s.call? job e with
  | some (.record _ idx _) => some idx
  | _ => none

def response? (e : ProxyEvent) : Option UpstreamResponse :=
  (s.sent? job e).bind fun (_, _, result) => result.toOption

/-- The call under the pool's mutex, whoever makes it. -/
def made? (e : ProxyEvent) : Option Call :=
  match e with
  | .others c => some c
  | e => s.call? job e

def run (es : List ProxyEvent) : Session := Runs.exec (step job) s es

/-- The calls under the pool's mutex along a run, whoever makes them. -/
def overheard (es : List ProxyEvent) : List Call := Runs.collect (step job) (made? job) s es

end Reads

/-- What an event does to a session. -/
inductive Turned (job : Job) (s : Session) : ProxyEvent → Session → Prop
  | idles (e : ProxyEvent) (p : Pool) (unleased : s.leased? job e = none)
      (unsent : s.sent? job e = none) : Turned job s e { s with pool := p }
  | leases (now : Instant) (p : Pool) (lease : Lease) (acquiring : s.phase = .acquiring)
      (granted : s.pool.granted (.tryAcquire now s.tried) = some lease) :
      Turned job s (.tries now)
        { s with
          pool := p, attempts := s.attempts + 1, tried := s.tried ++ [lease.idx]
          phase := .sending lease }
  | fails (now : Instant) (p : Pool) (e : AcquireError) (acquiring : s.phase = .acquiring)
      (unleased : s.leased? job (.tries now) = none) :
      Turned job s (.tries now) { s with pool := p, phase := .answered (.error (acquireFailed e)) }
  | receives (now : Instant) (x : Exchange) (lease : Lease) (sending : s.phase = .sending lease) :
      Turned job s (.replies now x)
        (s.receive job now lease (job.upstream.send job.forward lease.token x))
  | builds (now : Instant) (up : UpstreamResponse) (label : String)
      (building : s.phase = .building up label) :
      Turned job s (.builds now)
        { s with
          pool := (buildResponse s.pool now up label s.attempts).1
          phase := .answered (.forwarded (buildResponse s.pool now up label s.attempts).2) }

section Step

variable {job : Job} {s : Session} {now : Instant}

theorem step_tries (acquiring : s.phase = .acquiring) :
    step job s (.tries now) = s.attempt job now := by
  unfold step
  rw [acquiring]

theorem step_replies {lease : Lease} (sending : s.phase = .sending lease) (x : Exchange) :
    step job s (.replies now x) =
      s.receive job now lease (job.upstream.send job.forward lease.token x) := by
  unfold step
  rw [sending]

theorem leased?_tries (acquiring : s.phase = .acquiring) :
    s.leased? job (.tries now) = s.pool.leased (.tryAcquire now s.tried) := by
  unfold leased? call?
  rw [acquiring]
  rfl

theorem sent?_replies {lease : Lease} (sending : s.phase = .sending lease) (x : Exchange) :
    s.sent? job (.replies now x) =
      some (now, lease, job.upstream.send job.forward lease.token x) := by
  unfold sent?
  rw [sending]

theorem sent?_inv {x : Exchange} {lease : Lease} {result : Except UpstreamError UpstreamResponse}
    (sent : s.sent? job (.replies now x) = some (now, lease, result)) :
    s.phase = .sending lease ∧ job.upstream.send job.forward lease.token x = result := by
  unfold sent? at sent
  cases phase : s.phase with
  | sending lease' =>
    rw [phase] at sent
    cases sent
    exact ⟨rfl, rfl⟩
  | _ =>
    rw [phase] at sent
    cases sent

theorem attempt_turned (acquiring : s.phase = .acquiring) :
    s.Turned job (.tries now) (s.attempt job now) := by
  have calls : s.leased? job (.tries now) = s.pool.leased (.tryAcquire now s.tried) :=
    leased?_tries acquiring
  rw [s.pool.leased_tryAcquire] at calls
  unfold attempt Pool.acquireTurn
  rcases tried : s.pool.tryAcquire now s.tried with ⟨p, (u | ⟨earliest, summary⟩) | lease⟩
  · rw [tried] at calls
    simp only
    by_cases past : job.deadline < u
    · rw [if_pos past]
      exact .fails now p _ acquiring calls
    · rw [if_neg past]
      exact .idles _ p calls rfl
  · rw [tried] at calls
    exact .fails now p _ acquiring calls
  · have granted : s.pool.granted (.tryAcquire now s.tried) = some lease := by
      rw [s.pool.granted_tryAcquire, tried]
      rfl
    exact .leases now p lease acquiring granted

theorem turned_of_same {e : ProxyEvent} (same : step job s e = s) (unleased : s.leased? job e = none)
    (unsent : s.sent? job e = none) : s.Turned job e (step job s e) := by
  rw [same]
  exact .idles e s.pool unleased unsent

/-- The one account of what an event does to a session. -/
theorem step_turned (job : Job) (s : Session) (e : ProxyEvent) : s.Turned job e (step job s e) := by
  cases e with
  | others c => exact .idles _ _ rfl rfl
  | tries now =>
    cases phase : s.phase with
    | acquiring =>
      rw [step_tries phase]
      exact attempt_turned phase
    | _ =>
      exact turned_of_same (by simp only [step, phase]) (by simp only [leased?, call?, phase]; rfl) rfl
  | replies now x =>
    cases phase : s.phase with
    | sending lease =>
      rw [step_replies phase]
      exact .receives now x lease phase
    | _ =>
      have unsent : s.sent? job (.replies now x) = none := by simp only [sent?, phase]
      exact turned_of_same (by simp only [step, phase]) (by simp only [leased?, call?, unsent]; rfl)
        unsent
  | builds now =>
    cases phase : s.phase with
    | building up label =>
      have built : s.Turned job (.builds now) _ := .builds now up label phase
      unfold step
      rw [phase]
      exact built
    | _ =>
      exact turned_of_same (by simp only [step, phase]) (by simp only [leased?, call?, phase]; rfl) rfl

theorem recorded?_eq (job : Job) (s : Session) (e : ProxyEvent) :
    s.recorded? job e = (s.sent? job e).map fun sent => sent.2.1.idx := by
  unfold recorded? call?
  cases e with
  | others c => rfl
  | tries now => cases phase : s.phase <;> simp [sent?]
  | replies now x => cases s.sent? job (.replies now x) <;> rfl
  | builds now => cases phase : s.phase <;> simp [sent?]

end Step

/-- What `proxy` makes of the result of `send`. -/
inductive Received (job : Job) (s : Session) (now : Instant) (lease : Lease) :
    Except UpstreamError UpstreamResponse → Session → Prop
  | settles (up : UpstreamResponse) (p : Pool)
      (settled : (s.pool.record now lease.idx up.outcome).2 ≠ .retryOtherKey) :
      Received job s now lease (.ok up) { s with pool := p, phase := .building up lease.label }
  | retries (up : UpstreamResponse) (p : Pool)
      (retry : (s.pool.record now lease.idx up.outcome).2 = .retryOtherKey) :
      Received job s now lease (.ok up)
        ({ s with pool := p, lastResponse := some (up, lease.label) }.next job)
  | fails (e : UpstreamError) (p : Pool) :
      Received job s now lease (.error e) ({ s with pool := p, lastError := some e.text }.next job)

theorem receive_received (job : Job) (s : Session) (now : Instant) (lease : Lease)
    (result : Except UpstreamError UpstreamResponse) :
    s.Received job now lease result (s.receive job now lease result) := by
  cases result with
  | error e => exact .fails e _
  | ok up =>
    rcases recorded : s.pool.record now lease.idx up.outcome with ⟨p, verdict⟩
    have answer := congrArg Prod.snd recorded
    cases verdict with
    | ok =>
      simp only [receive, recorded]
      exact .settles up p (by rw [answer]; exact nofun)
    | returnToClient =>
      simp only [receive, recorded]
      exact .settles up p (by rw [answer]; exact nofun)
    | retryOtherKey =>
      simp only [receive, recorded]
      exact .retries up p answer

theorem next_cases (s : Session) (job : Job) :
    (s.attempts < job.maxAttempts ∧ s.next job = { s with phase := .acquiring }) ∨
    (job.maxAttempts ≤ s.attempts ∧ ∃ up label, s.lastResponse = some (up, label) ∧
      s.next job = { s with phase := .building up label }) ∨
    (job.maxAttempts ≤ s.attempts ∧ s.lastResponse = none ∧ ∃ detail,
      s.next job = { s with
        phase := .answered (.error (errorResponse 502 "upstream_unreachable" detail none)) }) := by
  unfold next
  by_cases room : s.attempts < job.maxAttempts
  · rw [if_pos room]
    exact .inl ⟨room, rfl⟩
  · rw [if_neg room]
    cases last : s.lastResponse with
    | none => exact .inr (.inr ⟨Nat.le_of_not_lt room, rfl, _, rfl⟩)
    | some pair => exact .inr (.inl ⟨Nat.le_of_not_lt room, pair.1, pair.2, rfl, rfl⟩)

section Pool

variable (job : Job) (s : Session)

@[simp] theorem next_pool : (s.next job).pool = s.pool := by
  rcases s.next_cases job with ⟨-, same⟩ | ⟨-, up, label, -, same⟩ | ⟨-, -, detail, same⟩ <;> rw [same]

theorem receive_pool (now : Instant) (lease : Lease)
    (result : Except UpstreamError UpstreamResponse) :
    (s.receive job now lease result).pool = s.pool.step (.record now lease.idx (outcomeOf result)) := by
  cases result with
  | error e => exact next_pool job _
  | ok up =>
    show _ = (s.pool.record now lease.idx up.outcome).1
    rcases recorded : s.pool.record now lease.idx up.outcome with ⟨p, verdict⟩
    cases verdict with
    | ok => simp only [receive, recorded]
    | returnToClient => simp only [receive, recorded]
    | retryOtherKey => simp only [receive, recorded, next_pool]

theorem attempt_pool (now : Instant) :
    (s.attempt job now).pool = s.pool.step (.tryAcquire now s.tried) := by
  show _ = (s.pool.tryAcquire now s.tried).1
  unfold attempt Pool.acquireTurn
  rcases tried : s.pool.tryAcquire now s.tried with ⟨p, (u | ⟨earliest, summary⟩) | lease⟩
  · by_cases past : job.deadline < u
    · simp only [past, if_true]
    · simp only [past, if_false]
  · rfl
  · rfl

/-- A session does nothing to the pool but its calls. -/
theorem step_pool (e : ProxyEvent) :
    (step job s e).pool = s.pool.after (s.made? job e).toList := by
  cases e with
  | others c => rfl
  | tries now =>
    unfold step made? call?
    cases s.phase with
    | acquiring => exact attempt_pool ..
    | _ => rfl
  | replies now x =>
    unfold step made? call? sent?
    cases s.phase with
    | sending lease => exact receive_pool ..
    | _ => rfl
  | builds now =>
    unfold step made? call?
    cases s.phase with
    | building up label => rfl
    | _ => rfl

/-- The pool behind a session has come to where it is by calls alone, the session's among them. -/
theorem run_pool (es : List ProxyEvent) :
    (s.run job es).pool = s.pool.after (s.overheard job es) := by
  induction es generalizing s with
  | nil => rfl
  | cons e es ih =>
    have first := step_pool job s e
    have rest := ih (step job s e)
    rw [first, ← Pool.after_append] at rest
    exact rest

end Pool

end Session

end BraveRotator
