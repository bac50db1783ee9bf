import BraveRotator.Proxy.HopByHop
import BraveRotator.Proxy.Success
import BraveRotator.Server.Sessions

namespace BraveRotator

/-- A key, and what came back for a request with it. -/
abbrev Hearing := String × Exchange

/-- The answer is what upstream has said in one of the exchanges. -/
def Job.Heard (job : Job) (keys : List String) (heard : List Hearing) (up : UpstreamResponse) : Prop :=
  ∃ h ∈ heard, h.1 ∈ keys ∧ job.upstream.send job.forward h.1 h.2 = .ok up

theorem Job.Heard.mono {job : Job} {keys : List String} {heard heard' : List Hearing}
    {up : UpstreamResponse} (known : job.Heard keys heard up) (more : heard ⊆ heard') :
    job.Heard keys heard' up := by
  obtain ⟨h, member, key, sent⟩ := known
  exact ⟨h, more member, key, sent⟩

namespace Session

/-- Whatever answer is at hand has been heard with one of the keys. -/
structure Knows (job : Job) (keys : List String) (heard : List Hearing) (s : Session) : Prop where
  sending : ∀ lease, s.phase = .sending lease → lease.token ∈ keys
  last : ∀ up label, s.lastResponse = some (up, label) → job.Heard keys heard up
  building : ∀ up label, s.phase = .building up label → job.Heard keys heard up
  forwarded : ∀ up', s.phase = .answered (.forwarded up') →
    ∃ p now up label attempts, job.Heard keys heard up ∧ up' = (buildResponse p now up label attempts).2

/-- What is heard with an event of the retry loop. -/
def heard? (s : Session) : ProxyEvent → Option Hearing
  | .replies _ x =>
    match s.phase with
    | .sending lease => some (lease.token, x)
    | _ => none
  | _ => none

section Knows

variable {job : Job} {keys : List String} {heard heard' : List Hearing} {s s' : Session}

theorem Knows.mono (knows : s.Knows job keys heard) (more : heard ⊆ heard') :
    s.Knows job keys heard' where
  sending := knows.sending
  last up label held := (knows.last up label held).mono more
  building up label phase := (knows.building up label phase).mono more
  forwarded up' phase := by
    obtain ⟨p, now, up, label, attempts, known, same⟩ := knows.forwarded up' phase
    exact ⟨p, now, up, label, attempts, known.mono more, same⟩

theorem Knows.of_same (knows : s.Knows job keys heard) (phase : s'.phase = s.phase)
    (last : s'.lastResponse = s.lastResponse) : s'.Knows job keys heard where
  sending := by
    rw [phase]
    exact knows.sending
  last := by
    rw [last]
    exact knows.last
  building := by
    rw [phase]
    exact knows.building
  forwarded := by
    rw [phase]
    exact knows.forwarded

theorem knows_next (last : ∀ up label, s.lastResponse = some (up, label) → job.Heard keys heard up) :
    (s.next job).Knows job keys heard := by
  rcases s.next_cases job with ⟨-, next⟩ | ⟨-, up, label, held, next⟩ | ⟨-, -, detail, next⟩
  · rw [next]
    exact ⟨nofun, last, nofun, nofun⟩
  · rw [next]
    refine ⟨nofun, last, ?_, nofun⟩
    intro up' label' phase
    cases phase
    exact last up label held
  · rw [next]
    refine ⟨nofun, last, nofun, ?_⟩
    intro up' phase
    cases phase

theorem Knows.received {now : Instant} {x : Exchange} {lease : Lease}
    (knows : s.Knows job keys heard) (sending : s.phase = .sending lease) :
    (s.receive job now lease (job.upstream.send job.forward lease.token x)).Knows job keys
      (heard ++ [(lease.token, x)]) := by
  have key := knows.sending lease sending
  have before := knows.mono (List.subset_append_left heard [(lease.token, x)])
  have fresh : ∀ up, job.upstream.send job.forward lease.token x = .ok up →
      job.Heard keys (heard ++ [(lease.token, x)]) up :=
    fun up sent => ⟨(lease.token, x), by simp, key, sent⟩
  have received := receive_received job s now lease (job.upstream.send job.forward lease.token x)
  generalize s.receive job now lease _ = s' at received
  generalize job.upstream.send job.forward lease.token x = result at fresh received
  cases received with
  | settles up p settled =>
    refine ⟨nofun, before.last, ?_, nofun⟩
    intro up' label phase
    cases phase
    exact fresh up rfl
  | retries up p retry =>
    apply knows_next
    intro up' label held
    cases held
    exact fresh up rfl
  | fails e p => exact knows_next before.last

theorem Knows.step (knows : s.Knows job keys heard) (tokens : ∀ k ∈ s.pool.keys, k.token ∈ keys)
    (e : ProxyEvent) : (step job s e).Knows job keys (heard ++ (s.heard? e).toList) := by
  have before := knows.mono (List.subset_append_left heard (s.heard? e).toList)
  have turned := step_turned job s e
  generalize Session.step job s e = s' at turned
  cases turned with
  | idles e p unleased unsent => exact before.of_same rfl rfl
  | leases now p lease acquiring granted =>
    refine ⟨?_, before.last, nofun, nofun⟩
    intro lease' phase
    cases phase
    obtain ⟨k, here, same⟩ := s.pool.granted_inv granted
    rw [same]
    exact tokens k (List.mem_of_getElem? here)
  | fails now p e acquiring unleased =>
    refine ⟨nofun, before.last, nofun, ?_⟩
    intro up' phase
    cases phase
  | receives now x lease sending =>
    simp only [heard?, sending]
    exact knows.received sending
  | builds now up label building =>
    refine ⟨nofun, before.last, nofun, ?_⟩
    intro up' phase
    cases phase
    exact ⟨s.pool, now, up, label, s.attempts, before.building up label building, rfl⟩

end Knows

end Session

namespace Server

variable (s : Server)

/-- What call `i` hears with an event. -/
def heard? (i : Nat) : ServerEvent → Option Hearing
  | .replies now j x =>
    if j = i then (s.client? i).bind fun c => (c.session s.pool).heard? (.replies now x) else none
  | _ => none

/-- All that call `i` hears over a run. -/
def heard (i : Nat) (es : List ServerEvent) : List Hearing := Runs.collect step (·.heard? i) s es

/-- The keys of the pool are among the given ones, and call `i`, if it is still there, knows only what
    it has heard. -/
structure Listens (i : Nat) (job : Job) (keys : List String) (heard : List Hearing) (s : Server) :
    Prop where
  inside : i < s.clients.length
  tokens : ∀ k ∈ s.pool.keys, k.token ∈ keys
  call : ∀ c, s.client? i = some c → c.job = job ∧ (c.session s.pool).Knows job keys heard

section Listens

variable {s} {i : Nat} {job : Job} {keys : List String} {heard : List Hearing}

theorem tokens_after {p : Pool} (tokens : ∀ k ∈ p.keys, k.token ∈ keys) (cs : List Call) :
    ∀ k ∈ (p.after cs).keys, k.token ∈ keys := by
  intro k' member
  obtain ⟨i, there⟩ := List.mem_iff_getElem?.mp member
  obtain ⟨k, here, same⟩ := p.after_lease cs i k' there
  have token : k'.token = k.token := congrArg Lease.token (same i)
  rw [token]
  exact tokens k (List.mem_of_getElem? here)

theorem heard?_of_moves {e : ServerEvent} {c : Client} {pe : ProxyEvent}
    (moves : s.moves? e = some (i, c, pe)) (here : s.client? i = some c) :
    s.heard? i e = (c.session s.pool).heard? pe := by
  rcases moves?_cases moves with ⟨now, rfl, rfl, holds⟩ | ⟨now, x, lease, rfl, rfl, -, sending⟩ |
    ⟨now, rfl, rfl, -⟩
  · rfl
  · rw [heard?, if_pos rfl, here, Option.bind_some]
  · rfl

theorem Listens.step (listens : s.Listens i job keys heard) (e : ServerEvent) :
    (s.step e).Listens i job keys (heard ++ (s.heard? i e).toList) := by
  have inside := listens.inside.trans_le (s.length_le_step e)
  have tokens : ∀ k ∈ (s.step e).pool.keys, k.token ∈ keys := by
    rw [step_pool]
    exact tokens_after listens.tokens _
  refine ⟨inside, tokens, ?_⟩
  have more : heard ⊆ heard ++ (s.heard? i e).toList := List.subset_append_left ..
  have stepped := s.step_stepped e
  generalize s.step e = s' at stepped
  intro c' there
  -- A call that has not moved knows what it knew.
  have unmoved : s.client? i = some c' → c'.job = job ∧
      (c'.session s'.pool).Knows job keys (heard ++ (s.heard? i e).toList) := by
    intro here
    obtain ⟨same, knows⟩ := listens.call c' here
    exact ⟨same, (knows.mono more).of_same rfl rfl⟩
  cases stepped with
  | moved j c pe line asleep moves here =>
    have found := there.symm.trans (client?_follow here pe i)
    by_cases same : i = j
    · subst same
      rw [if_pos rfl] at found
      cases found
      obtain ⟨rfl, knows⟩ := listens.call c here
      rw [heard?_of_moves moves here]
      exact ⟨rfl, (knows.step listens.tokens pe).of_same rfl rfl⟩
    · rw [if_neg same] at found
      exact unmoved found.symm
  | entered now req r line same routed accepted =>
    have found := there.symm.trans
      (s.client?_entered (some { job := r.job s.cfg s.upstream s.pool now }) i)
    rw [if_neg listens.inside.ne] at found
    exact unmoved found.symm
  | dropped now j line asleep same =>
    have found := there.symm.trans (s.client?_dropped (i := j) i)
    split at found
    · cases found
    · exact unmoved found.symm
  | looked p pool idle quiet undropped => exact unmoved there

theorem Listens.run (listens : s.Listens i job keys []) (es : List ServerEvent) :
    (s.after es).Listens i job keys (s.heard i es) := by
  induction es using List.reverseRecOn with
  | nil => exact listens
  | append_singleton es e ih =>
    have last := ih.step e
    rw [Server.heard, Runs.collect_append, after_append, Runs.collect_cons, Runs.collect_nil,
      List.append_nil]
    exact last

end Listens

end Server

theorem receive_ok {u : Upstream} {x : Exchange} {up : UpstreamResponse}
    (received : u.receive x = .ok up) :
    x.inTime = true ∧ x.head = .ok (up.status, up.headers) ∧
      collectLimited u.maxBody x.frames = .ok up.body := by
  unfold Upstream.receive at received
  split at received
  · rename_i inTime
    refine ⟨inTime, ?_⟩
    split at received
    · cases received
    · rename_i status headers head
      split at received
      · cases received
      · rename_i body collected
        cases received
        exact ⟨head, collected⟩
  · cases received

namespace Server

section New

variable (turnstile : Mutex) (host : Host) (uriError : String → Option String) (cfg : Config)
  (started : Instant)

end New

end Server

end BraveRotator
