import BraveRotator.Config.Reading
import BraveRotator.Mock.Limits
import BraveRotator.Pool.Rate
import BraveRotator.Server.Relay

namespace BraveRotator

open SlidingWindow

namespace Server

section Sent

variable (s : Server)

/-- The key of the request that is sent with an event, and when. -/
def sent? (e : ServerEvent) : Option (String × Instant) :=
  ((s.call? e).bind s.pool.granted).map fun lease => (lease.token, e.time)

/-- When requests are sent with the key. -/
def sentWith (key : String) (es : List ServerEvent) : List Instant :=
  ((Runs.collect step sent? s es).filter (·.1 = key)).map Prod.snd

variable {s} {key : String} {i : Nat}

theorem sentWith_cons (e : ServerEvent) (es : List ServerEvent) :
    s.sentWith key (e :: es) =
      ((s.sent? e).toList.filter (·.1 = key)).map Prod.snd ++ (s.step e).sentWith key es := by
  unfold sentWith
  rw [Runs.collect_cons, List.filter_append, List.map_append]

theorem grants_cons_eq (p : Pool) (c : Call) (cs : List Call) :
    p.grants i (c :: cs) =
      (if p.leased c = some i then [c.time] else []) ++ (p.step c).grants i cs := by
  rw [Pool.grants, Pool.leases, Runs.collect_cons, timesOf_append, p.timesOf_leased]
  rfl

/-- The requests with a key are the leases of the one that has it. -/
theorem sentWith_eq (es : List ServerEvent)
    (only : ∀ (j : Nat) (k : KeyState), s.pool.keys[j]? = some k → (k.token = key ↔ j = i)) :
    s.sentWith key es = s.pool.grants i (s.calls es) := by
  induction es generalizing s with
  | nil => rfl
  | cons e es ih =>
    have pool := s.step_pool e
    have next := ih (s := s.step e) fun j k there => by
      rw [pool] at there
      obtain ⟨k', here, same⟩ := s.pool.after_lease _ j k there
      rw [show k.token = k'.token from congrArg Lease.token (same j)]
      exact only j k' here
    have called : s.calls (e :: es) = (s.call? e).toList ++ (s.step e).calls es := Runs.collect_cons ..
    rw [sentWith_cons, next, called]
    cases call : s.call? e with
    | none =>
      rw [call] at pool
      rw [sent?, call, pool]
      rfl
    | some c =>
      have time := s.call?_time call
      rw [call] at pool
      rw [sent?, call, Option.bind_some, Option.toList_some, List.singleton_append, grants_cons_eq,
        pool, Pool.leased]
      refine congrArg (· ++ (s.pool.step c).grants i ((s.step e).calls es)) ?_
      cases granted : s.pool.granted c with
      | none => rfl
      | some lease =>
        obtain ⟨k, here, same⟩ := s.pool.granted_inv granted
        have token : lease.token = k.token := congrArg Lease.token same
        have iff := only lease.idx k here
        rw [← token] at iff
        by_cases own : lease.idx = i
        · simp [own, iff.mpr own, time]
        · simp [own, mt iff.mp own]

theorem snapshot_of_idle {e : ServerEvent} {c : Call} (idle : s.moves? e = none)
    (called : s.call? e = some c) : ∃ now, c = .snapshot now := by
  cases e with
  | arrives now req =>
    simp only [call?, visit?] at called
    split at called
    · split at called
      · cases called
        exact ⟨now, rfl⟩
      · cases called
    · cases called
      exact ⟨now, rfl⟩
    · cases called
  | reports now =>
    cases called
    exact ⟨now, rfl⟩
  | _ =>
    rw [call?_of_idle idle (by simp) (by simp)] at called
    cases called

theorem send_head {u : Upstream} {r : Forward} {k : String} {x : Exchange} {up : UpstreamResponse}
    (sent : u.send r k x = .ok up) : x.head = .ok (up.status, up.headers) := by
  unfold Upstream.send at sent
  split at sent
  · cases sent
  · exact (receive_ok sent).2.1

/-- An outcome is recorded for what comes of a request. -/
theorem record_inv {es : List ServerEvent} {t : Instant} {o : Outcome}
    (member : Call.record t i o ∈ s.calls es) :
    (∃ text, o = .transport text) ∨ ∃ j x up, ServerEvent.replies t j x ∈ es ∧
      x.head = .ok (up.status, up.headers) ∧ o = UpstreamResponse.outcome up := by
  obtain ⟨before, after, split⟩ := List.append_of_mem member
  obtain ⟨first, e, rest, rfl, -, call, -⟩ := Runs.collect_split split
  generalize Runs.exec Server.step s first = s' at call
  cases moves : s'.moves? e with
  | none =>
    obtain ⟨now, same⟩ := snapshot_of_idle moves call
    cases same
  | some move =>
    obtain ⟨j, c, pe⟩ := move
    rw [call?_of_moves moves] at call
    rcases moves?_cases moves with ⟨now, rfl, rfl, -⟩ | ⟨now, x, lease, rfl, rfl, -, sending⟩ |
      ⟨now, rfl, rfl, -⟩
    · simp only [Session.call?] at call
      split at call <;> cases call
    · have phase : (c.session s'.pool).phase = .sending lease := sending
      simp only [Session.call?, Session.sent?, phase, Option.map_some] at call
      cases sent : c.job.upstream.send c.job.forward lease.token x with
      | error e =>
        rw [sent] at call
        cases call
        exact .inl ⟨_, rfl⟩
      | ok up =>
        rw [sent] at call
        cases call
        exact .inr ⟨j, x, up, by simp, send_head sent, rfl⟩
    · simp only [Session.call?] at call
      split at call <;> cases call

end Sent

/-- No two keys of a configuration are the same, so a key has an index of its own. -/
theorem owner {envHost : EnvHost} {env : Env} {cfg : Config} (ok : Config.fromEnv envHost env = .ok cfg)
    (host : Host) (key : String) :
    ∃ i, ∀ (j : Nat) (k : KeyState), (cfg.pool host).keys[j]? = some k → (k.token = key ↔ j = i) := by
  obtain ⟨keys, -⟩ := Config.fromEnv_lists ok
  have token : ∀ (j : Nat) (k : KeyState), (cfg.pool host).keys[j]? = some k →
      cfg.keys[j]? = some k.token := by
    intro j k here
    obtain ⟨token, there, same⟩ := Option.map_eq_some_iff.mp (List.getElem?_mapIdx.symm.trans here)
    rw [there, ← same]
    rfl
  by_cases known : key ∈ cfg.keys
  · obtain ⟨i, there⟩ := List.mem_iff_getElem?.mp known
    refine ⟨i, fun j k here => ⟨?_, ?_⟩⟩
    · intro same
      have here := token j k here
      rw [same, keys, Distinct.getElem?_eraseDups_iff] at here
      rw [keys, Distinct.getElem?_eraseDups_iff] at there
      obtain ⟨pos, first, rfl⟩ := here
      obtain ⟨pos', first', rfl⟩ := there
      rw [first.unique first']
    · rintro rfl
      exact Option.some.inj ((token j k here).symm.trans there)
  · refine ⟨cfg.keys.length, fun j k here => ?_⟩
    have here := token j k here
    have inside := (List.getElem?_eq_some_iff.mp here).1
    refine iff_of_false ?_ (Nat.ne_of_lt inside)
    intro same
    exact known (same ▸ List.mem_of_getElem? here)

/-- The pacing works: where requests take at most the margin longer than the quickest of their key, the
    keys are nobody else's, and the rate assumed at first is not too high, Brave never sees a request
    too many within a second. -/
theorem never_too_fast {envHost : EnvHost} {env : Env} {cfg : Config}
    (ok : Config.fromEnv envHost env = .ok cfg) (turnstile : Mutex) (host : Host)
    (uriError : String → Option String) (started : Instant) (rps month : Nat) (mockStarted : Instant)
    (slow : cfg.defaultRpsPerKey.val ≤ rps) (es : List ServerEvent) (arrivals : List MockRequest)
    (ordered : Runs.Ordered ServerEvent.time 0 es)
    (ordered' : Runs.Ordered MockRequest.now 0 arrivals)
    (delivers : ∀ key, ∃ least, Delivers (Delayed least cfg.windowMargin)
      ((new turnstile host uriError cfg started).sentWith key es) (Mock.timesWith key arrivals))
    (answers : ∀ t i x status headers, ServerEvent.replies t i x ∈ es → x.head = .ok (status, headers) →
      ∃ reply ∈ (Mock.new rps month mockStarted).replies arrivals, reply.Comes status headers) :
    ∀ reply ∈ (Mock.new rps month mockStarted).replies arrivals, ¬ reply.TooFast := by
  have reads := Config.reads_of_ok ok
  obtain ⟨n, -, assumed⟩ := reads.defaultRps
  have reports : Pool.Reports rps ((new turnstile host uriError cfg started).calls es) := by
    intro t i o member l learned
    rcases record_inv member with ⟨text, rfl⟩ | ⟨j, x, up, replied, head, rfl⟩
    · cases learned
    · obtain ⟨reply, told, comes⟩ := answers t j x up.status up.headers replied head
      obtain ⟨before, after, split⟩ := List.append_of_mem told
      obtain ⟨first, r, rest, -, -, same, -⟩ := Runs.collect_split split
      cases same
      exact (learned_le_of_comes comes learned).trans_eq (Mock.after_rps _ first)
  have limited : ∀ key, Limited Mock.window rps (Mock.timesWith key arrivals) := by
    intro key
    obtain ⟨least, delivers⟩ := delivers key
    obtain ⟨i, only⟩ := owner ok host key
    rw [sentWith_eq es only] at delivers
    have sent := Pool.grants_limited host cfg.keys (cfg.pool host).cfg (calls_ordered _ ordered)
      (max_le slow (by omega)) reports i
    exact sent.delivered delivers (Mock.timesWith_sorted ordered')
  intro reply member
  obtain ⟨before, after, split⟩ := List.append_of_mem member
  obtain ⟨first, r, rest, rfl, -, same, -⟩ := Runs.collect_split split
  cases same
  rw [show first ++ r :: rest = (first ++ [r]) ++ rest by simp] at ordered' limited
  apply Mock.not_tooFast_of_limited ((Runs.ordered_append MockRequest.now 0 _ rest).mp ordered').1 rfl
  intro key
  exact (limited key).shorter ⟨_, (Mock.timesWith_append ..).symm⟩

/-- The reply to the request that reaches the mock first. -/
def firstReply : MockReply :=
  ((Mock.new 1 0 0).handle { now := 150000000, key := some "first", path := "/a" }).2

/-- Two requests, one window apart; the first takes all of the margin, and is answered. In between
    somebody looks at the mock's counts. -/
def pacedRequests : List ServerEvent :=
  [.arrives 0 (.ofTests "/a"), .tries 0,
    .replies 200000000 0
      { head := .ok (200, firstReply.headers.foldl
          (fun h entry => h.insert entry.1 (HeaderValue.utf8 entry.2.toList)) MultiMap.empty)
        frames := [], inTime := true },
    .arrives 300000000 (.ofTests "/b"), .tries 1100000000]

def pacedArrivals : List MockRequest :=
  [{ now := 150000000, key := some "first", path := "/a" },
    { now := 1000000000, key := none, path := "/mock/stats" },
    { now := 1150000000, key := some "first", path := "/b" }]

theorem pacedRequests_not_tooFast :
    ((Mock.new 1 0 0).replies pacedArrivals).length = 3 ∧
      ∀ reply ∈ (Mock.new 1 0 0).replies pacedArrivals, ¬ reply.TooFast := by
  refine ⟨by decide, ?_⟩
  obtain ⟨cfg, ok⟩ := Config.ok_of_toBool (by decide +kernel :
    (Config.fromEnv Config.localHost (Config.envOf "first" "")).toBool = true)
  have known : (Config.fromEnv Config.localHost (Config.envOf "first" "")).toOption.all (fun cfg =>
      cfg.windowMargin = 100000000 ∧ cfg.defaultRpsPerKey.val = 1 ∧
        Runs.collect step sent? (new .fifo Config.epoch (fun _ => none) cfg 0)
          pacedRequests =
          [("first", 0), ("first", 1100000000)]) = true := by
    decide +kernel
  rw [ok] at known
  obtain ⟨margin, assumed, sent⟩ := of_decide_eq_true known
  apply never_too_fast ok .fifo Config.epoch (fun _ => none) 0 1 0 0 assumed.le pacedRequests pacedArrivals
    (by decide) (by decide)
  · intro key
    refine ⟨50000000, ?_⟩
    rw [margin, sentWith, sent]
    by_cases same : key = "first"
    · rw [same]
      exact ⟨[(0, 150000000), (1100000000, 1150000000)], List.Subperm.refl _, List.Perm.refl _, by decide⟩
    · refine ⟨[], List.nil_subperm, ?_, nofun⟩
      simp [Mock.timesWith, pacedArrivals, Ne.symm same]
  · intro t i x status headers replied head
    have only : x.head = .ok (200, firstReply.headers.foldl
        (fun h entry => h.insert entry.1 (HeaderValue.utf8 entry.2.toList)) MultiMap.empty) := by
      simp only [pacedRequests, List.mem_cons, reduceCtorEq, false_or, or_false,
        ServerEvent.replies.injEq, List.not_mem_nil] at replied
      rw [replied.2.2]
    cases only.symm.trans head
    refine ⟨firstReply, List.mem_cons_self, rfl, ?_⟩
    decide +kernel

end Server

end BraveRotator
