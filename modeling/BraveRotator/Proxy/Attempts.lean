import BraveRotator.Proxy.Session

namespace BraveRotator

namespace Session

section Run

variable (job : Job) (s : Session) (es : List ProxyEvent)

def leases : List Nat := Runs.collect (step job) (leased? job) s es

def records : List Nat := Runs.collect (step job) (recorded? job) s es

/-- The HTTP responses that the attempts produced. -/
def responses : List UpstreamResponse := Runs.collect (step job) (response? job) s es

/-- The key whose attempt is out. -/
def pending : List Nat :=
  match s.phase with
  | .sending lease => [lease.idx]
  | _ => []

/-- The session has an HTTP response that it can answer with. -/
def Holds : Prop :=
  s.lastResponse ≠ none ∨ (∃ up label, s.phase = .building up label) ∨
    ∃ up, s.phase = .answered (.forwarded up)

/-- The session has answered `upstream_unreachable`. -/
def Unreachable : Prop := ∃ e, s.phase = .answered (.error e) ∧ e.error = "upstream_unreachable"

end Run

/-- The account that a session keeps of its attempts. -/
structure Ledger (job : Job) (leases records : List Nat) (responses : List UpstreamResponse)
    (s : Session) : Prop where
  tried : s.tried = leases
  attempts : s.attempts = leases.length
  bounded : s.attempts ≤ job.maxAttempts
  room : s.phase = .acquiring → s.attempts < job.maxAttempts
  out : leases = records ++ s.pending
  holds : responses ≠ [] → s.Holds
  tired : s.Unreachable → s.lastResponse = none ∧ job.maxAttempts ≤ s.attempts

section Ledger

variable {job : Job} {s s' : Session} {e : ProxyEvent} {leases records : List Nat}
  {responses : List UpstreamResponse}

theorem pending_acquiring (acquiring : s.phase = .acquiring) : s.pending = [] := by
  unfold pending
  rw [acquiring]

theorem pending_building {up : UpstreamResponse} {label : String}
    (building : s.phase = .building up label) : s.pending = [] := by
  unfold pending
  rw [building]

theorem pending_answered {response : ProxyResponse} (answered : s.phase = .answered response) :
    s.pending = [] := by
  unfold pending
  rw [answered]

theorem Holds.of_acquiring (holds : s.Holds) (acquiring : s.phase = .acquiring) :
    s.lastResponse ≠ none := by
  rcases holds with last | ⟨up, label, phase⟩ | ⟨up, phase⟩
  · exact last
  · rw [acquiring] at phase
    cases phase
  · rw [acquiring] at phase
    cases phase

theorem Holds.of_sending {lease : Lease} (holds : s.Holds) (sending : s.phase = .sending lease) :
    s.lastResponse ≠ none := by
  rcases holds with last | ⟨up, label, phase⟩ | ⟨up, phase⟩
  · exact last
  · rw [sending] at phase
    cases phase
  · rw [sending] at phase
    cases phase

theorem acquireFailed_reachable (err : AcquireError) :
    (acquireFailed err).error ≠ "upstream_unreachable" := by
  cases err <;> simp [acquireFailed, errorResponse]

theorem Ledger.next (tried : s.tried = leases) (attempts : s.attempts = leases.length)
    (bounded : s.attempts ≤ job.maxAttempts) (out : leases = records)
    (holds : responses ≠ [] → s.lastResponse ≠ none) :
    Ledger job leases records responses (s.next job) := by
  rcases s.next_cases job with ⟨room, same⟩ | ⟨full, up, label, last, same⟩ | ⟨full, none, detail, same⟩
  · rw [same]
    refine ⟨tried, attempts, bounded, fun _ => room, ?_, fun some => .inl (holds some), ?_⟩
    · exact out.trans (List.append_nil _).symm
    · rintro ⟨e, phase, -⟩
      cases phase
  · rw [same]
    refine ⟨tried, attempts, bounded, nofun, ?_, fun _ => .inr (.inl ⟨up, label, rfl⟩), ?_⟩
    · exact out.trans (List.append_nil _).symm
    · rintro ⟨e, phase, -⟩
      cases phase
  · rw [same]
    refine ⟨tried, attempts, bounded, nofun, ?_, fun some => absurd none (holds some), ?_⟩
    · exact out.trans (List.append_nil _).symm
    · exact fun _ => ⟨none, full⟩

theorem Ledger.received (ledger : Ledger job leases records responses s) {now : Instant} {lease : Lease}
    {result : Except UpstreamError UpstreamResponse} (sending : s.phase = .sending lease)
    (received : s.Received job now lease result s') :
    Ledger job leases (records ++ [lease.idx]) (responses ++ result.toOption.toList) s' := by
  have out : leases = records ++ [lease.idx] := by
    have before := ledger.out
    unfold pending at before
    rw [sending] at before
    exact before
  cases received with
  | settles up p settled =>
    refine ⟨ledger.tried, ledger.attempts, ledger.bounded, nofun, ?_, ?_, ?_⟩
    · exact out.trans (List.append_nil _).symm
    · exact fun _ => .inr (.inl ⟨up, lease.label, rfl⟩)
    · rintro ⟨e, phase, -⟩
      cases phase
  | retries up p retry =>
    exact .next ledger.tried ledger.attempts ledger.bounded out fun _ => nofun
  | fails e p =>
    have none : responses ++ (Except.error e : Except UpstreamError UpstreamResponse).toOption.toList =
        responses := List.append_nil _
    rw [none]
    exact .next ledger.tried ledger.attempts ledger.bounded out fun some =>
      (ledger.holds some).of_sending sending

theorem Ledger.leased (ledger : Ledger job leases records responses s)
    (acquiring : s.phase = .acquiring) (p : Pool) (lease : Lease) :
    Ledger job (leases ++ [lease.idx]) records responses
      { s with
        pool := p, attempts := s.attempts + 1, tried := s.tried ++ [lease.idx]
        phase := .sending lease } := by
  have out := ledger.out
  rw [pending_acquiring acquiring, List.append_nil] at out
  refine ⟨?_, ?_, ledger.room acquiring, nofun, ?_, ?_, ?_⟩
  · show s.tried ++ [lease.idx] = _
    rw [ledger.tried]
  · show s.attempts + 1 = _
    rw [ledger.attempts, List.length_append, List.length_singleton]
  · exact congrArg (· ++ [lease.idx]) out
  · exact fun some => .inl ((ledger.holds some).of_acquiring acquiring)
  · rintro ⟨e, phase, -⟩
    cases phase

theorem Ledger.answered (ledger : Ledger job leases records responses s) (quiet : s.pending = [])
    (p : Pool) {response : ProxyResponse}
    (holds : responses ≠ [] → s.lastResponse ≠ none ∨ ∃ up, response = .forwarded up)
    (reached : ∀ e, response = .error e → e.error ≠ "upstream_unreachable") :
    Ledger job leases records responses { s with pool := p, phase := .answered response } := by
  have out := ledger.out
  rw [quiet] at out
  refine ⟨ledger.tried, ledger.attempts, ledger.bounded, nofun, out, ?_, ?_⟩
  · intro some
    rcases holds some with last | ⟨up, same⟩
    · exact .inl last
    · exact .inr (.inr ⟨up, congrArg Phase.answered same⟩)
  · rintro ⟨e, phase, text⟩
    cases phase
    exact absurd text (reached e rfl)

theorem Ledger.turned (ledger : Ledger job leases records responses s) (turned : s.Turned job e s') :
    Ledger job (leases ++ (s.leased? job e).toList) (records ++ (s.recorded? job e).toList)
      (responses ++ (s.response? job e).toList) s' := by
  have recorded := recorded?_eq job s e
  cases turned with
  | idles _ p unleased unsent =>
    rw [recorded, unleased, response?, unsent]
    simp only [Option.map_none, Option.bind_none, Option.toList_none, List.append_nil]
    exact ⟨ledger.tried, ledger.attempts, ledger.bounded, ledger.room, ledger.out, ledger.holds,
      ledger.tired⟩
  | leases now p lease acquiring granted =>
    have leased : s.pool.leased (.tryAcquire now s.tried) = some lease.idx :=
      congrArg (Option.map Lease.idx) granted
    rw [recorded, leased?_tries acquiring, leased]
    simp only [sent?, response?, Option.map_none, Option.bind_none, Option.toList_none,
      List.append_nil, Option.toList_some]
    exact ledger.leased acquiring p lease
  | fails now p err acquiring unleased =>
    rw [recorded, unleased]
    simp only [sent?, response?, Option.map_none, Option.bind_none, Option.toList_none,
      List.append_nil]
    apply ledger.answered (pending_acquiring acquiring)
    · exact fun some => .inl ((ledger.holds some).of_acquiring acquiring)
    · intro e same
      cases same
      exact acquireFailed_reachable err
  | receives now x lease sending =>
    have unleased : s.leased? job (.replies now x) = none := by
      unfold leased? call?
      rw [sent?_replies sending]
      rfl
    rw [recorded, unleased, response?, sent?_replies sending]
    simp only [Option.map_some, Option.bind_some, Option.toList_none, Option.toList_some,
      List.append_nil]
    exact ledger.received sending (receive_received ..)
  | builds now up label building =>
    have unleased : s.leased? job (.builds now) = none := by
      unfold leased? call?
      rw [building]
      rfl
    rw [recorded, unleased]
    simp only [sent?, response?, Option.map_none, Option.bind_none, Option.toList_none,
      List.append_nil]
    apply ledger.answered (pending_building building)
    · exact fun _ => .inr ⟨_, rfl⟩
    · intro e same
      cases same

theorem Ledger.run (ledger : Ledger job leases records responses s) (es : List ProxyEvent) :
    Ledger job (leases ++ s.leases job es) (records ++ s.records job es)
      (responses ++ s.responses job es) (s.run job es) := by
  induction es generalizing leases records responses s with
  | nil => simpa [Session.leases, Session.records, Session.responses, Session.run] using ledger
  | cons e es ih =>
    have later := ih (ledger.turned (step_turned job s e))
    simpa [Session.leases, Session.records, Session.responses, Session.run] using later

theorem ledger_new (job : Job) (p : Pool) (room : 0 < job.maxAttempts) :
    Ledger job [] [] [] { pool := p } where
  tried := rfl
  attempts := rfl
  bounded := Nat.zero_le _
  room _ := room
  out := rfl
  holds some := absurd rfl some
  tired := by
    rintro ⟨e, phase, -⟩
    cases phase

end Ledger

section Settled

variable {job : Job} {s s' : Session} {e : ProxyEvent}

/-- The session answers, or has answered, with this response. -/
def Settled (up : UpstreamResponse) (label : String) (attempts : Nat) (s : Session) : Prop :=
  s.attempts = attempts ∧
    (s.phase = .building up label ∨
      ∃ p now, s.phase = .answered (.forwarded (buildResponse p now up label attempts).2))

theorem Settled.not_acquiring {up : UpstreamResponse} {label : String} {attempts : Nat}
    (settled : s.Settled up label attempts) : s.phase ≠ .acquiring := by
  obtain ⟨-, phase | ⟨p, now, phase⟩⟩ := settled
  · rw [phase]
    exact nofun
  · rw [phase]
    exact nofun

theorem Settled.not_sending {up : UpstreamResponse} {label : String} {attempts : Nat} {lease : Lease}
    (settled : s.Settled up label attempts) : s.phase ≠ .sending lease := by
  obtain ⟨-, phase | ⟨p, now, phase⟩⟩ := settled
  · rw [phase]
    exact nofun
  · rw [phase]
    exact nofun

theorem Settled.turned {up : UpstreamResponse} {label : String} {attempts : Nat}
    (settled : s.Settled up label attempts) (turned : s.Turned job e s') :
    s.leased? job e = none ∧ s'.Settled up label attempts := by
  cases turned with
  | idles _ p unleased unsent => exact ⟨unleased, settled⟩
  | leases now p lease acquiring granted => exact absurd acquiring settled.not_acquiring
  | fails now p err acquiring unleased => exact absurd acquiring settled.not_acquiring
  | receives now x lease sending => exact absurd sending settled.not_sending
  | builds now up' label' building =>
    obtain ⟨same, phase | ⟨p, at', phase⟩⟩ := settled
    · rw [phase] at building
      cases building
      refine ⟨?_, same, .inr ⟨s.pool, now, ?_⟩⟩
      · unfold leased? call?
        rw [phase]
        rfl
      · rw [same]
    · rw [phase] at building
      cases building

theorem Settled.run {up : UpstreamResponse} {label : String} {attempts : Nat}
    (settled : s.Settled up label attempts) (es : List ProxyEvent) :
    s.leases job es = [] ∧ (s.run job es).Settled up label attempts := by
  induction es generalizing s with
  | nil => exact ⟨rfl, settled⟩
  | cons e es ih =>
    obtain ⟨unleased, next⟩ := settled.turned (step_turned job s e)
    obtain ⟨none, later⟩ := ih next
    refine ⟨?_, later⟩
    show (s.leased? job e).toList ++ (step job s e).leases job es = []
    rw [unleased, none]
    rfl

theorem receive_settled (job : Job) {now : Instant} {lease : Lease} {up : UpstreamResponse}
    (final : (s.pool.record now lease.idx up.outcome).2 ≠ .retryOtherKey) :
    (s.receive job now lease (.ok up)).Settled up lease.label s.attempts := by
  have received := receive_received job s now lease (.ok up)
  generalize s.receive job now lease (.ok up) = s' at received
  cases received with
  | settles _ p settled => exact ⟨rfl, .inl rfl⟩
  | retries _ p retry => exact absurd retry final

end Settled

section Spread

variable {job : Job} {s : Session} {e : ProxyEvent} {i : Nat}

theorem leased?_inv (leased : s.leased? job e = some i) :
    ∃ now, e = .tries now ∧ s.pool.leased (.tryAcquire now s.tried) = some i := by
  have turned := step_turned job s e
  generalize step job s e = s' at turned
  cases turned with
  | idles _ p unleased unsent =>
    rw [unleased] at leased
    cases leased
  | leases now p lease acquiring granted =>
    rw [leased?_tries acquiring] at leased
    exact ⟨now, rfl, leased⟩
  | fails now p err acquiring unleased =>
    rw [unleased] at leased
    cases leased
  | receives now x lease sending =>
    unfold leased? call? at leased
    rw [sent?_replies sending] at leased
    cases leased
  | builds now up label building =>
    unfold leased? call? at leased
    rw [building] at leased
    cases leased

/-- A key is leased again only when all the others that are healthy have been tried too. -/
theorem leased_again {now : Instant} (leased : s.pool.leased (.tryAcquire now s.tried) = some i)
    (again : i ∈ s.tried) {j : Nat} {k : KeyState} (here : s.pool.keys[j]? = some k)
    (healthy : k.Healthy now) : j ∈ s.tried := by
  obtain ⟨now', exclude, k', call, there, candidate, -⟩ := s.pool.leased_cases leased
  cases call
  by_contra fresh
  exact candidate ((s.pool.spares_iff now s.tried).mpr ⟨j, k, here, fresh, healthy⟩) again

end Spread

/-- What the retry loop owes a client's request over a run. -/
structure RetriesWell (job : Job) (s : Session) (es : List ProxyEvent) : Prop where
  /-- The calls bring the pool to where it is, those of the session among them. -/
  pool : (s.run job es).pool = s.pool.after (s.overheard job es)
  /-- What comes of a send is recorded, and nothing else happens to the pool. -/
  kept : ∀ before now x after lease result, es = before ++ .replies now x :: after →
    (s.run job before).sent? job (.replies now x) = some (now, lease, result) →
    (s.run job (before ++ [.replies now x])).pool =
      ((s.run job before).pool.record now lease.idx (outcomeOf result)).1
  /-- Each lease has its outcome recorded, one that is still out apart. -/
  recorded : s.leases job es = s.records job es ++ (s.run job es).pending
  answered : ∀ response, (s.run job es).phase = .answered response →
    s.records job es = s.leases job es
  spread : ∀ before e after i, es = before ++ e :: after →
    (s.run job before).leased? job e = some i →
    ∃ now, e = .tries now ∧ (i ∈ s.leases job before →
      ∀ (j : Nat) (k : KeyState), (s.run job before).pool.keys[j]? = some k → k.Healthy now →
        j ∈ s.leases job before)
  /-- The first response with another verdict than `retryOtherKey` is the answer. -/
  settled : ∀ before now x after lease up, es = before ++ .replies now x :: after →
    (s.run job before).sent? job (.replies now x) = some (now, lease, .ok up) →
    ((s.run job before).pool.record now lease.idx up.outcome).2 ≠ .retryOtherKey →
    (s.run job (before ++ [.replies now x])).leases job after = [] ∧
      (s.run job es).Settled up lease.label (s.leases job before).length
  unreachable : (s.run job es).Unreachable → s.leases job es ≠ [] ∧ s.responses job es = []

theorem run_append (job : Job) (s : Session) (as bs : List ProxyEvent) :
    s.run job (as ++ bs) = (s.run job as).run job bs := Runs.exec_append ..

theorem Ledger.retriesWell {job : Job} {s : Session} (room : 0 < job.maxAttempts)
    (ledgers : ∀ es, Ledger job (s.leases job es) (s.records job es) (s.responses job es) (s.run job es))
    (es : List ProxyEvent) : RetriesWell job s es := by
  refine ⟨s.run_pool job es, ?_, (ledgers es).out, ?_, ?_, ?_, ?_⟩
  · intro before now x after lease result split sent
    obtain ⟨phase, result⟩ := sent?_inv sent
    rw [run_append, ← result]
    exact (congrArg Session.pool (step_replies phase x)).trans (receive_pool ..)
  · intro response phase
    have out := (ledgers es).out
    rw [pending_answered phase, List.append_nil] at out
    exact out.symm
  · intro before e after i split leased
    obtain ⟨now, rfl, granted⟩ := leased?_inv leased
    refine ⟨now, rfl, ?_⟩
    rw [← (ledgers before).tried]
    exact fun again j k here healthy => leased_again granted again here healthy
  · intro before now x after lease up split sent final
    obtain ⟨phase, result⟩ := sent?_inv sent
    have stepped : s.run job (before ++ [.replies now x]) =
        (s.run job before).receive job now lease (.ok up) := by
      rw [run_append, ← result]
      exact step_replies phase x
    have settled := receive_settled job final
    rw [← stepped, (ledgers before).attempts] at settled
    have whole : es = before ++ [.replies now x] ++ after := by rw [split, List.append_cons]
    rw [whole, run_append job s (before ++ [ProxyEvent.replies now x])]
    exact settled.run after
  · intro unreachable
    have ledger := ledgers es
    obtain ⟨last, full⟩ := ledger.tired unreachable
    constructor
    · intro none
      have zero := ledger.attempts
      rw [none, List.length_nil] at zero
      omega
    · by_contra some
      obtain ⟨e, phase, text⟩ := unreachable
      rcases ledger.holds some with held | ⟨up, label, other⟩ | ⟨up, other⟩
      · exact held last
      · rw [phase] at other
        cases other
      · rw [phase] at other
        cases other

end Session

end BraveRotator
