import BraveRotator.Lib.Simulation
import BraveRotator.Model.Server
import BraveRotator.Pool.Secrets
import BraveRotator.Proxy.Labels

namespace BraveRotator

/-- Two tokens that have the same label, and that a request can carry or not alike. -/
structure Alike (key key' : String) : Prop where
  tail : key'.toList.reverse.take 4 = key.toList.reverse.take 4
  valid : (HeaderValue.fromStr key'.toList).isSome = (HeaderValue.fromStr key.toList).isSome

section Rekey

variable (f : String → String)

def Phase.rekey : Phase → Phase
  | .sending lease => .sending (lease.rekey f)
  | phase => phase

def Session.rekey (s : Session) : Session :=
  { s with pool := s.pool.rekey f, phase := s.phase.rekey f }

def Client.rekey (c : Client) : Client := { c with phase := c.phase.rekey f }

/-- The process with other tokens for its keys. -/
def Server.rekey (s : Server) : Server :=
  { s with
    cfg := { s.cfg with keys := s.cfg.keys.map f }
    pool := s.pool.rekey f
    clients := s.clients.map (Option.map (Client.rekey f)) }

end Rekey

variable {f : String → String}

/-- What comes of a request depends on the token only in whether the request can carry it. -/
theorem Upstream.send_alike (u : Upstream) (r : Forward) {key key' : String} (alike : Alike key key')
    (x : Exchange) : u.send r key' x = u.send r key x := by
  rw [send_eq, send_eq, alike.valid]

namespace Session

variable (job : Job) (s : Session)

theorem rekey_next : (s.rekey f).next job = (s.next job).rekey f := by
  unfold next rekey
  dsimp only
  split
  · rfl
  · split <;> rfl

theorem rekey_attempt (now : Instant) : (s.rekey f).attempt job now = (s.attempt job now).rekey f := by
  have tried : (s.rekey f).tried = s.tried := rfl
  have turn : (s.rekey f).pool.acquireTurn now
      { made := now, deadline := job.deadline, request := s.tried } = _ :=
    s.pool.rekey_acquireTurn f now _
  unfold attempt
  rw [tried, turn]
  rcases s.pool.acquireTurn now { made := now, deadline := job.deadline, request := s.tried } with
    ⟨p, (e | lease) | u⟩
  · rfl
  · rfl
  · rfl

theorem rekey_receive (now : Instant) (lease : Lease) (result : Except UpstreamError UpstreamResponse) :
    (s.rekey f).receive job now (lease.rekey f) result = (s.receive job now lease result).rekey f := by
  have recorded : ∀ o, (s.rekey f).pool.record now (lease.rekey f).idx o = _ :=
    fun o => s.pool.rekey_record f now lease.idx o
  unfold receive
  cases result with
  | error e =>
    dsimp only
    rw [recorded]
    exact rekey_next job { s with
      pool := (s.pool.record now lease.idx (.transport e.text)).1, lastError := some e.text }
  | ok up =>
    dsimp only
    rw [recorded]
    rcases s.pool.record now lease.idx up.outcome with ⟨p, verdict⟩
    cases verdict with
    | ok => rfl
    | returnToClient => rfl
    | retryOtherKey =>
      exact rekey_next job { s with pool := p, lastResponse := some (up, lease.label) }

theorem rekey_step (alike : ∀ key, Alike key (f key)) (e : ProxyEvent) :
    step job (s.rekey f) e = (step job s e).rekey f := by
  cases e with
  | others c => exact congrArg (fun p => { s.rekey f with pool := p }) (s.pool.rekey_step f c)
  | tries now =>
    obtain ⟨p, tried, attempts, lastResponse, lastError, phase⟩ := s
    cases phase with
    | acquiring => exact rekey_attempt job _ now
    | _ => rfl
  | replies now x =>
    obtain ⟨p, tried, attempts, lastResponse, lastError, phase⟩ := s
    cases phase with
    | sending lease =>
      have sent : job.upstream.send job.forward (lease.rekey f).token x =
          job.upstream.send job.forward lease.token x :=
        job.upstream.send_alike job.forward (alike lease.token) x
      let sending : Session := { pool := p, tried, attempts, lastResponse, lastError, phase := .sending lease }
      show (sending.rekey f).receive job now (lease.rekey f)
        (job.upstream.send job.forward (lease.rekey f).token x) = _
      rw [sent]
      exact rekey_receive job sending now lease _
    | _ => rfl
  | builds now =>
    obtain ⟨p, tried, attempts, lastResponse, lastError, phase⟩ := s
    cases phase with
    | building up label =>
      simp only [step, rekey, Phase.rekey, buildResponse, Pool.rekey_snapshot]
    | _ => rfl

end Session

namespace Client

variable (c : Client) (p : Pool)

theorem rekey_resume (s : Session) : (c.rekey f).resume (s.rekey f) = (c.resume s).rekey f := rfl

theorem rekey_answer? : (c.rekey f).answer? = c.answer? := by
  unfold answer? rekey
  cases c.phase <;> rfl

theorem rekey_waits : (c.rekey f).waits = c.waits := by
  unfold waits rekey
  cases c.phase <;> rfl

theorem rekey_sending? : (c.rekey f).sending?.isSome = c.sending?.isSome := by
  unfold sending? rekey
  cases c.phase <;> rfl

end Client

namespace Server

variable (s : Server)

theorem rekey_client? (i : Nat) : (s.rekey f).client? i = (s.client? i).map (Client.rekey f) := by
  unfold client? rekey
  rw [List.getElem?_map]
  cases s.clients[i]? with
  | none => rfl
  | some o => rfl

theorem rekey_follow (alike : ∀ key, Alike key (f key)) (i : Nat) (c : Client) (e : ProxyEvent) :
    (s.rekey f).follow i (c.rekey f) e = (s.follow i c e).rekey f := by
  have stepped : Session.step (c.rekey f).job ((c.rekey f).session (s.rekey f).pool) e =
      (Session.step c.job (c.session s.pool) e).rekey f :=
    Session.rekey_step c.job (c.session s.pool) alike e
  unfold follow
  rw [stepped]
  generalize Session.step c.job (c.session s.pool) e = t
  have clients : (s.clients.map (Option.map (Client.rekey f))).set i (some ((c.resume t).rekey f)) =
      (s.clients.set i (some (c.resume t))).map (Option.map (Client.rekey f)) := by
    rw [List.map_set, Option.map_some]
  exact congrArg (fun clients => ({ s.rekey f with pool := t.pool.rekey f, clients } : Server)) clients

theorem rekey_holder? (now : Instant) :
    (s.rekey f).holder? now = (s.holder? now).map fun (i, c) => (i, c.rekey f) := by
  have asleep : (s.rekey f).asleep = s.asleep := rfl
  have line : (s.rekey f).line = s.line := rfl
  unfold holder?
  rw [asleep, line]
  split
  · cases s.line.head? with
    | none => rfl
    | some i =>
      simp only [Option.bind_some, rekey_client?, Option.map_map]
      rfl
  · rfl

theorem rekey_enter (now : Instant) (req : ClientRequest) :
    (s.rekey f).enter now req = (s.enter now req).rekey f := by
  have accept : req.accept (s.rekey f).cfg = req.accept s.cfg := rfl
  have job : ∀ r : Forward, r.job (s.rekey f).cfg (s.rekey f).upstream (s.rekey f).pool now =
      r.job s.cfg s.upstream s.pool now := by
    intro r
    have length : (s.rekey f).pool.keys.length = s.pool.keys.length := List.length_map _
    unfold Forward.job
    rw [length]
    rfl
  have length : (s.rekey f).clients.length = s.clients.length := List.length_map _
  unfold enter
  rw [accept]
  split
  · rfl
  · rename_i r accepted
    rw [job, length]
    have clients : s.clients.map (Option.map (Client.rekey f)) ++
        [some ({ job := r.job s.cfg s.upstream s.pool now } : Client)] =
        (s.clients ++ [some ({ job := r.job s.cfg s.upstream s.pool now } : Client)]).map
          (Option.map (Client.rekey f)) := by
      rw [List.map_append]
      rfl
    let line := s.line ++ [s.clients.length]
    exact congrArg (fun clients => ({ s.rekey f with clients, line } : Server)) clients

theorem rekey_arrive (now : Instant) (req : ClientRequest) :
    (s.rekey f).arrive now req = (s.arrive now req).rekey f := by
  have looked : (s.rekey f).pool.snapshot now = _ := s.pool.rekey_snapshot f now
  unfold arrive
  split
  · exact s.rekey_enter now req
  · have same : authorized (s.rekey f).cfg req.headers = authorized s.cfg req.headers := rfl
    unfold status
    rw [same, looked]
    split <;> rfl
  · unfold health
    rw [looked]
    rfl
  · rfl

theorem rekey_attempt (alike : ∀ key, Alike key (f key)) (now : Instant) (i : Nat) (c : Client) :
    (s.rekey f).attempt now i (c.rekey f) = (s.attempt now i c).rekey f := by
  have turn : (s.rekey f).pool.acquireTurn now
      { made := now, deadline := c.job.deadline, request := c.tried } = _ :=
    s.pool.rekey_acquireTurn f now _
  have follow := s.rekey_follow alike i c (.tries now)
  have job : (c.rekey f).job = c.job := rfl
  have tried : (c.rekey f).tried = c.tried := rfl
  unfold attempt
  dsimp only
  rw [job, tried, turn, follow]
  cases (s.pool.acquireTurn now { made := now, deadline := c.job.deadline, request := c.tried }).2 with
  | sleeps u => rfl
  | ends result => rfl

theorem rekey_answer (alike : ∀ key, Alike key (f key)) (now : Instant) (i : Nat) (c : Client)
    (x : Exchange) : (s.rekey f).answer now i (c.rekey f) x = (s.answer now i c x).rekey f := by
  have waits : ((s.follow i c (.replies now x)).rekey f |>.client? i).any Client.waits =
      ((s.follow i c (.replies now x)).client? i).any Client.waits := by
    rw [rekey_client?, Option.any_map]
    congr 1
    funext c
    exact c.rekey_waits
  unfold answer
  rw [rekey_follow s alike]
  dsimp only
  rw [waits]
  split <;> rfl

theorem rekey_drop (i : Nat) : (s.rekey f).drop i = (s.drop i).rekey f := by
  have clients : (s.clients.map (Option.map (Client.rekey f))).set i none =
      (s.clients.set i none).map (Option.map (Client.rekey f)) := by
    rw [List.map_set, Option.map_none]
  have line : (s.rekey f).line = s.line := rfl
  unfold drop
  dsimp only
  rw [line]
  split
  · let line := s.turnstile.handover s.line.tail
    exact congrArg (fun clients => ({ s.rekey f with clients, line, asleep := 0 } : Server)) clients
  · let line := s.line.filter (· ≠ i)
    exact congrArg (fun clients => ({ s.rekey f with clients, line } : Server)) clients

theorem rekey_sending (i : Nat) :
    ((s.rekey f).client? i).filter (·.sending?.isSome) =
      ((s.client? i).filter (·.sending?.isSome)).map (Client.rekey f) := by
  rw [rekey_client?]
  cases s.client? i with
  | none => rfl
  | some c =>
    rw [Option.map_some, Option.filter_some, Option.filter_some, Client.rekey_sending?]
    split <;> rfl

theorem rekey_step (alike : ∀ key, Alike key (f key)) (e : ServerEvent) :
    (s.rekey f).step e = (s.step e).rekey f := by
  cases e with
  | arrives now req => exact s.rekey_arrive now req
  | tries now =>
    simp only [step, rekey_holder?]
    cases s.holder? now with
    | none => rfl
    | some holder => exact s.rekey_attempt alike now holder.1 holder.2
  | replies now i x =>
    simp only [step, rekey_sending]
    cases (s.client? i).filter (·.sending?.isSome) with
    | none => rfl
    | some c => exact s.rekey_answer alike now i c x
  | builds now i =>
    simp only [step, rekey_client?]
    cases s.client? i with
    | none => rfl
    | some c => exact s.rekey_follow alike i c (.builds now)
  | drops now i => exact s.rekey_drop i
  | reports now =>
    have looked : (s.rekey f).pool.snapshot now = _ := s.pool.rekey_snapshot f now
    simp only [step, looked]
    rfl

theorem rekey_ending? (alike : ∀ key, Alike key (f key)) (i : Nat) (c : Client) (e : ProxyEvent) :
    (s.rekey f).ending? i (c.rekey f) e = s.ending? i c e := by
  have stepped : Session.step (c.rekey f).job ((c.rekey f).session (s.rekey f).pool) e =
      (Session.step c.job (c.session s.pool) e).rekey f :=
    Session.rekey_step c.job (c.session s.pool) alike e
  unfold ending?
  rw [stepped, Client.rekey_resume, Client.rekey_answer?, Client.rekey_answer?]

theorem rekey_reply? (now : Instant) (req : ClientRequest) :
    (s.rekey f).reply? now req = s.reply? now req := by
  have looked : (s.rekey f).pool.snapshot now = _ := s.pool.rekey_snapshot f now
  have same : authorized (s.rekey f).cfg req.headers = authorized s.cfg req.headers := rfl
  unfold reply?
  split
  · rfl
  · unfold status
    rw [same, looked]
    split <;> rfl
  · unfold health
    rw [looked]
  · rfl

/-- What leaves the process does not depend on the tokens. -/
theorem rekey_output? (alike : ∀ key, Alike key (f key)) (e : ServerEvent) :
    (s.rekey f).output? e = s.output? e := by
  cases e with
  | arrives now req => exact s.rekey_reply? now req
  | tries now =>
    simp only [output?, rekey_holder?, Option.bind_map]
    cases s.holder? now with
    | none => rfl
    | some holder => exact s.rekey_ending? alike holder.1 holder.2 _
  | replies now i x =>
    simp only [output?, rekey_sending]
    cases (s.client? i).filter (·.sending?.isSome) with
    | none => rfl
    | some c => exact s.rekey_ending? alike i c _
  | builds now i =>
    simp only [output?, rekey_client?]
    cases s.client? i with
    | none => rfl
    | some c => exact s.rekey_ending? alike i c _
  | drops now i => rfl
  | reports now =>
    have looked : (s.rekey f).pool.snapshot now = _ := s.pool.rekey_snapshot f now
    simp only [output?, looked]

section New

variable (turnstile : Mutex) (host : Host) (uriError : String → Option String) (cfg : Config)
  (started : Instant)

theorem rekey_new (alike : ∀ key, Alike key (f key)) :
    new turnstile host uriError { cfg with keys := cfg.keys.map f } started =
      (new turnstile host uriError cfg started).rekey f := by
  have pool : ({ cfg with keys := cfg.keys.map f } : Config).pool host = (cfg.pool host).rekey f :=
    Pool.rekey_new f host cfg.keys _ fun key => (alike key).tail
  unfold new
  rw [pool]
  rfl

/-- The keys stay secret: whatever comes in, all answers and reports are the same with other keys in
    their place, as long as their last four characters are, and what can be sent in a header. -/
theorem keys_stay_secret (f : String → String) (alike : ∀ key ∈ cfg.keys, Alike key (f key))
    (es : List ServerEvent) :
    (new turnstile host uriError { cfg with keys := cfg.keys.map f } started).outputs es =
      (new turnstile host uriError cfg started).outputs es := by
  -- Elsewhere the tokens may stay what they are.
  let g : String → String := fun key => if key ∈ cfg.keys then f key else key
  have everywhere : ∀ key, Alike key (g key) := by
    intro key
    by_cases member : key ∈ cfg.keys
    · rw [show g key = f key from if_pos member]
      exact alike key member
    · rw [show g key = key from if_neg member]
      exact ⟨rfl, rfl⟩
  have keys : cfg.keys.map f = cfg.keys.map g :=
    List.map_congr_left fun key member => (if_pos member).symm
  rw [keys, rekey_new turnstile host uriError cfg started everywhere]
  exact Simulation.collect_image (fun s e => rekey_step s everywhere e)
    (fun s e => rekey_output? s everywhere e) _ es

theorem first_stays_secret :
    (ofTests ["thirst"]).outputs [.arrives 0 (.ofTests "/proxy/status"), .reports 1] =
      (ofTests ["first"]).outputs [.arrives 0 (.ofTests "/proxy/status"), .reports 1] := by
  have alike : ∀ key ∈ ["first"], Alike key "thirst" := by
    intro key member
    rw [List.mem_singleton.mp member]
    exact ⟨by decide, by decide⟩
  exact keys_stay_secret _ _ _ (Config.ofDefaults ["first"]) 0 (fun _ => "thirst") alike _

end New

end Server

end BraveRotator
