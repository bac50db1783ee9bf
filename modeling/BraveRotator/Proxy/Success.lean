import BraveRotator.Key.Effects
import BraveRotator.Proxy.Attempts

namespace BraveRotator

theorem collectLimited_cons_eq_ok {limit : Nat} {data body : List UInt8} {frames : List Frame} :
    collectLimited limit (.ok data :: frames) = .ok body ↔
      ∃ tail, data.length ≤ limit ∧ collectLimited (limit - data.length) frames = .ok tail ∧
        data ++ tail = body := by
  rw [collectLimited]
  by_cases excess : limit < data.length
  · rw [if_pos excess]
    apply iff_of_false nofun
    rintro ⟨tail, fits, -⟩
    omega
  · rw [if_neg excess]
    cases collectLimited (limit - data.length) frames with
    | error e =>
      apply iff_of_false nofun
      rintro ⟨tail, -, rest, -⟩
      cases rest
    | ok tail =>
      constructor
      · intro collected
        exact ⟨tail, Nat.le_of_not_lt excess, rfl, Except.ok.inj collected⟩
      · rintro ⟨_, -, rest, rfl⟩
        cases rest
        rfl

theorem collectLimited_eq_ok {limit : Nat} {frames : List Frame} {body : List UInt8} :
    collectLimited limit frames = .ok body ↔
      ∃ pieces : List (List UInt8), frames = pieces.map .ok ∧ pieces.flatten = body ∧
        body.length ≤ limit := by
  induction frames generalizing limit body with
  | nil =>
    constructor
    · intro collected
      cases collected
      exact ⟨[], rfl, rfl, Nat.zero_le _⟩
    · rintro ⟨pieces, same, rfl, -⟩
      rw [List.map_eq_nil_iff.mp same.symm]
      rfl
  | cons frame frames ih =>
    cases frame with
    | error e =>
      apply iff_of_false nofun
      rintro ⟨pieces, same, -⟩
      cases pieces <;> simp at same
    | ok data =>
      rw [collectLimited_cons_eq_ok]
      constructor
      · rintro ⟨tail, fits, rest, rfl⟩
        obtain ⟨pieces, rfl, rfl, room⟩ := ih.mp rest
        refine ⟨data :: pieces, rfl, rfl, ?_⟩
        rw [List.length_append]
        omega
      · rintro ⟨pieces, same, rfl, fits⟩
        cases pieces with
        | nil => cases same
        | cons piece pieces =>
          obtain ⟨rfl, rfl⟩ := by simpa using same
          rw [List.flatten_cons, List.length_append] at fits
          exact ⟨pieces.flatten, by omega, ih.mpr ⟨pieces, rfl, rfl, by omega⟩, rfl⟩

/-- All of the response comes through in time, and it is no longer than allowed. -/
def Exchange.Whole (x : Exchange) (maxBody : Nat) : Prop :=
  x.inTime = true ∧
    ∃ pieces : List (List UInt8), x.frames = pieces.map .ok ∧ pieces.flatten.length ≤ maxBody

/-- The request is sent, and what comes of it is a response with this head. -/
structure Upstream.Answered (u : Upstream) (r : Forward) (key : String) (x : Exchange) (status : Nat)
    (headers : HeaderMap) : Prop where
  sent : ∃ req, u.request r key = .ok req
  head : x.head = .ok (status, headers)

namespace Upstream

variable {u : Upstream} {r : Forward} {key : String} {x : Exchange} {status : Nat}
  {headers : HeaderMap}

theorem Answered.send_eq (answered : u.Answered r key x status headers) :
    u.send r key x = u.receive x := by
  obtain ⟨req, sent⟩ := answered.sent
  unfold send
  rw [sent]

theorem Answered.send_of_whole (answered : u.Answered r key x status headers)
    (whole : x.Whole u.maxBody) : ∃ body, u.send r key x = .ok { status, headers, body } := by
  obtain ⟨inTime, pieces, frames, fits⟩ := whole
  have collected : collectLimited u.maxBody x.frames = .ok pieces.flatten :=
    collectLimited_eq_ok.mpr ⟨pieces, frames, rfl, fits⟩
  refine ⟨pieces.flatten, ?_⟩
  rw [answered.send_eq]
  unfold receive
  rw [if_pos inTime, answered.head]
  dsimp only
  rw [collected]

theorem Answered.send_of_not_whole (answered : u.Answered r key x status headers)
    (part : ¬ x.Whole u.maxBody) : ∃ e, u.send r key x = .error e := by
  rw [answered.send_eq]
  unfold receive
  by_cases inTime : x.inTime = true
  · rw [if_pos inTime, answered.head]
    dsimp only
    cases collected : collectLimited u.maxBody x.frames with
    | error e => exact ⟨_, rfl⟩
    | ok body =>
      obtain ⟨pieces, frames, rfl, fits⟩ := collectLimited_eq_ok.mp collected
      exact absurd ⟨inTime, pieces, frames, fits⟩ part
  · rw [if_neg inTime]
    exact ⟨_, rfl⟩

end Upstream

theorem KeyState.digest_success (k : KeyState) (now : Instant) {status : Nat}
    (rl : Option RateLimitInfo) (bodySnippet : Option String) (range : 200 ≤ status ∧ status ≤ 299) :
    (k.digest now (.response status rl bodySnippet)).2 = .ok ∧
      (k.digest now (.response status rl bodySnippet)).1.consecutiveFailures = 0 := by
  obtain ⟨_, _, _, _, recorded⟩ := (k.noteResponse now status rl).recordSuccess_fields now rl
  unfold digest
  dsimp only
  rw [if_pos range, recorded]
  exact ⟨rfl, rfl⟩

namespace Session

variable {job : Job} {s : Session} {now : Instant} {x : Exchange} {lease : Lease}

theorem next_sending (s : Session) (job : Job) : (s.next job).phase ≠ .sending lease := by
  rcases s.next_cases job with ⟨-, same⟩ | ⟨-, up, label, -, same⟩ | ⟨-, -, detail, same⟩ <;>
    rw [same] <;> exact nofun

theorem receive_sending (job : Job) (s : Session) (result : Except UpstreamError UpstreamResponse)
    {lease' : Lease} : (s.receive job now lease' result).phase ≠ .sending lease := by
  have received := receive_received job s now lease' result
  generalize s.receive job now lease' result = s' at received
  cases received with
  | settles up p settled => exact nofun
  | retries up p retry => exact next_sending _ job
  | fails err p => exact next_sending _ job

def Within (s : Session) : Prop := ∀ lease, s.phase = .sending lease → lease.idx < s.pool.keys.length

theorem step_length (job : Job) (s : Session) (e : ProxyEvent) :
    (step job s e).pool.keys.length = s.pool.keys.length := by
  rw [step_pool]
  cases s.made? job e with
  | none => rfl
  | some c => exact s.pool.step_length c

theorem Within.step (within : s.Within) (job : Job) (e : ProxyEvent) : (s.step job e).Within := by
  intro lease phase
  rw [step_length]
  have turned := step_turned job s e
  generalize s.step job e = s' at turned phase
  cases turned with
  | idles _ p unleased unsent => exact within lease phase
  | leases now p lease' acquiring granted =>
    cases phase
    have leased : s.pool.leased (.tryAcquire now s.tried) = some lease.idx :=
      congrArg (Option.map Lease.idx) granted
    obtain ⟨-, -, k, -, here, -⟩ := s.pool.leased_cases leased
    exact (List.getElem?_eq_some_iff.mp here).1
  | fails now p err acquiring unleased => cases phase
  | receives now x lease' sending => exact absurd phase (receive_sending job s _)
  | builds now up label building => cases phase

theorem within_run (job : Job) (p : Pool) (es : List ProxyEvent) :
    (({ pool := p } : Session).run job es).Within :=
  Runs.exec_invariant' (I := Within) (fun _ e within => within.step job e) es nofun

/-- The reply is not followed by another attempt, and counts as a success of the key only. -/
structure SpentOnce (job : Job) (s : Session) (e : ProxyEvent) (idx : Nat) : Prop where
  last : ∀ after, (step job s e).leases job after = []
  counted : ∃ k k', s.pool.keys[idx]? = some k ∧ (step job s e).pool.keys[idx]? = some k' ∧
    k'.stats.ok = k.stats.ok + 1 ∧ k'.consecutiveFailures ≤ k.consecutiveFailures

theorem receive_key {k : KeyState} (here : s.pool.keys[lease.idx]? = some k)
    (result : Except UpstreamError UpstreamResponse) :
    (s.receive job now lease result).pool.keys[lease.idx]? =
      some (k.digest now (outcomeOf result)).1 := by
  rw [receive_pool]
  show (s.pool.record now lease.idx (outcomeOf result)).1.keys[lease.idx]? = _
  rw [Pool.record_keys, List.getElem?_modify_eq, here]
  rfl

theorem record_verdict {k : KeyState} (here : s.pool.keys[lease.idx]? = some k) (outcome : Outcome) :
    (s.pool.record now lease.idx outcome).2 = (k.digest now outcome).2 := by
  unfold Pool.record
  rw [here]

theorem spentOnce_of_ok (within : s.Within) (sending : s.phase = .sending lease)
    {up : UpstreamResponse} (range : 200 ≤ up.status ∧ up.status ≤ 299)
    (sent : job.upstream.send job.forward lease.token x = .ok up) :
    s.SpentOnce job (.replies now x) lease.idx := by
  obtain ⟨k, here⟩ : ∃ k, s.pool.keys[lease.idx]? = some k :=
    ⟨_, List.getElem?_eq_getElem (within lease sending)⟩
  obtain ⟨verdict, failures⟩ := k.digest_success now (RateLimitInfo.fromHeaders up.headers)
    (if 200 ≤ up.status ∧ up.status ≤ 299 then none else some (snippet up.body)) range
  have effect := k.digest_effect now up.outcome
  have success : up.outcome.isSuccess = true := decide_eq_true range
  have stepped : step job s (.replies now x) = s.receive job now lease (.ok up) := by
    rw [step_replies sending, sent]
  constructor
  · intro after
    have final : (s.pool.record now lease.idx up.outcome).2 ≠ .retryOtherKey := by
      rw [record_verdict here]
      exact fun retry => absurd (verdict.symm.trans retry) nofun
    have settled := receive_settled job final
    rw [← stepped] at settled
    exact (settled.run after).1
  · refine ⟨k, (k.digest now up.outcome).1, here, ?_, ?_, ?_⟩
    · rw [stepped]
      exact receive_key here (.ok up)
    · rw [effect.ok, success]
      rfl
    · exact failures.trans_le (Nat.zero_le _)

theorem not_spentOnce_of_error (sending : s.phase = .sending lease)
    {e : UpstreamError} (sent : job.upstream.send job.forward lease.token x = .error e) :
    ¬ s.SpentOnce job (.replies now x) lease.idx := by
  rintro ⟨-, k, k', here, there, ok, -⟩
  rw [step_replies sending, sent, receive_key here] at there
  cases there
  have kept := (k.digest_effect now (outcomeOf (.error e))).ok
  have failure : (outcomeOf (.error e)).isSuccess = false := rfl
  rw [kept, failure] at ok
  simp at ok

end Session

/-- A success is spent only once exactly when all of it can be read. -/
theorem Forward.spent_once_iff (r : Forward) (cfg : Config) (upstream : Upstream) (p : Pool)
    (started : Instant) (before : List ProxyEvent) (now : Instant) (x : Exchange) (lease : Lease)
    (status : Nat) (headers : HeaderMap)
    (sending : (({ pool := p } : Session).run (r.job cfg upstream p started) before).phase =
      .sending lease)
    (answered : upstream.Answered r lease.token x status headers)
    (range : 200 ≤ status ∧ status ≤ 299) :
    (({ pool := p } : Session).run (r.job cfg upstream p started) before).SpentOnce
        (r.job cfg upstream p started) (.replies now x) lease.idx ↔
      x.Whole upstream.maxBody := by
  have within := Session.within_run (r.job cfg upstream p started) p before
  constructor
  · intro spent
    by_contra part
    obtain ⟨e, sent⟩ := answered.send_of_not_whole part
    exact Session.not_spentOnce_of_error sending sent spent
  · intro whole
    obtain ⟨body, sent⟩ := answered.send_of_whole whole
    exact Session.spentOnce_of_ok within sending range sent

/-- Two keys, and bodies of at most two bytes. -/
def twoBytes : Config := { Config.ofDefaults ["first", "second"] with maxBodyBytes := 2 }

def webSearch : Forward where
  method := "GET"
  pathAndQuery := "/res/v1/web/search?q=brave"
  headers := ⟨[], List.nodup_nil⟩
  body := []

def webSearchJob : Job :=
  webSearch.job twoBytes (twoBytes.upstream fun _ => none) (.ofTests twoBytes.keys []) 0

def okWith (body : List UInt8) : Exchange where
  head := .ok (200, ⟨[], List.nodup_nil⟩)
  frames := [.ok body]
  inTime := true

def webSearchSent : Session := ({ pool := .ofTests twoBytes.keys [] } : Session).run webSearchJob [.tries 0]

theorem okWith_answered (body : List UInt8) :
    webSearchJob.upstream.Answered webSearch "first" (okWith body) 200 ⟨[], List.nodup_nil⟩ :=
  ⟨⟨_, rfl⟩, rfl⟩

theorem two_bytes_spent_once : webSearchSent.SpentOnce webSearchJob (.replies 1 (okWith [123, 125])) 0 :=
  (webSearch.spent_once_iff twoBytes _ _ 0 [.tries 0] 1 _ { idx := 0, token := "first", label := "k1:..irst" }
    200 _ rfl (okWith_answered _) (by decide)).mpr ⟨rfl, [[123, 125]], rfl, by decide⟩

/-- A body of three bytes: the request goes to the second key too, neither success is counted, and
    both keys have a failure against them. -/
theorem three_bytes_spent_twice :
    webSearchJob.upstream.Answered webSearch "first" (okWith [123, 32, 125]) 200 ⟨[], List.nodup_nil⟩ ∧
      ¬ webSearchSent.SpentOnce webSearchJob (.replies 1 (okWith [123, 32, 125])) 0 ∧
      webSearchSent.leases webSearchJob
        [.replies 1 (okWith [123, 32, 125]), .tries 2, .replies 3 (okWith [123, 32, 125])] = [1] ∧
      (webSearchSent.run webSearchJob
          [.replies 1 (okWith [123, 32, 125]), .tries 2, .replies 3 (okWith [123, 32, 125])]).pool.keys.map
        (fun k => (k.stats.ok, k.consecutiveFailures)) = [(0, 1), (0, 1)] := by
  refine ⟨okWith_answered _, ?_, by decide, by decide⟩
  intro spent
  exact absurd (spent.last [.tries 2]) (by decide)

end BraveRotator
