import BraveRotator.Pool.Stats
import BraveRotator.Proxy.History
import BraveRotator.Traffic.Cap
import Mathlib.Data.List.Perm.Subperm

namespace BraveRotator

/-- No other key is tried after it, and it does not end the month of the key. -/
def Outcome.serves : Outcome → Bool
  | .response status rl _ =>
    !retriedStatus status && !((200 ≤ status ∧ status ≤ 299) && rl.any (·.monthExhausted))
  | .transport _ => false

/-- A key with this monthly cap has served all along, and the cap is not reached. -/
structure Reliable (cap : Option Nat) (log : List Outcome) : Prop where
  serves : ∀ o ∈ log, o.serves = true
  under : ∀ c, cap = some c → log.countP Outcome.isSuccess < c

theorem Reliable.of_append {cap : Option Nat} {log more : List Outcome}
    (reliable : Reliable cap (log ++ more)) : Reliable cap log where
  serves o member := reliable.serves o (List.mem_append_left more member)
  under c same := by
    have whole := reliable.under c same
    rw [List.countP_append] at whole
    omega

namespace KeyState

/-- A key that has been reliable so far: it was never parked. -/
structure Stands (cap : Option Nat) (log : List Outcome) (k : KeyState) : Prop where
  ok : k.health = .ok
  cap : k.monthlyCapOverride = cap
  successes : k.stats.ok = log.countP Outcome.isSuccess

section Stands

variable {cap : Option Nat} {log : List Outcome} {k k' : KeyState} {now : Instant}

theorem Stands.healthy (stands : k.Stands cap log) (now : Instant) : k.Healthy now := by
  unfold Healthy
  rw [stands.ok]
  exact nofun

/-- An outcome that serves parks the key only at its cap. -/
theorem Stands.parkFor_none (stands : k.Stands cap log) {o : Outcome}
    (reliable : Reliable cap (log ++ [o])) : k.parkFor o = none := by
  have serves := reliable.serves o (by simp)
  cases o with
  | transport err => cases serves
  | response status rl bodySnippet =>
    unfold Outcome.serves retriedStatus at serves
    simp only [Bool.and_eq_true, Bool.not_eq_true', decide_eq_false_iff_not] at serves
    obtain ⟨kept, month⟩ := serves
    by_cases range : 200 ≤ status ∧ status ≤ 299
    · have room : ¬ k.monthlyCapOverride.any (· ≤ k.stats.ok + 1) = true := by
        rw [stands.cap, stands.successes]
        intro reached
        obtain ⟨c, same, le⟩ := (Option.any_eq_true ..).mp reached
        have under := reliable.under c same
        have success : (Outcome.response status rl bodySnippet).isSuccess = true :=
          decide_eq_true range
        rw [List.countP_append, List.countP_singleton, if_pos success] at under
        have le : c ≤ log.countP Outcome.isSuccess + 1 := of_decide_eq_true le
        omega
      rw [decide_eq_true range, Bool.true_and] at month
      rw [k.parkFor_success _ _ range, successPark, month, if_neg Bool.false_ne_true, if_neg room]
    · exact k.parkFor_none _ _ range (by omega) (by omega)

theorem Stands.turn {window : Duration} {o : Option Outcome} {leased : Bool}
    (stands : k.Stands cap log) (reliable : Reliable cap (log ++ o.toList))
    (turn : k.Turn window now o leased k') : k'.Stands cap (log ++ o.toList) := by
  have ok : k'.health = .ok := by
    cases turn with
    | digested o =>
      have parked := k.digest_health now o
      rw [stands.parkFor_none reliable, stands.ok] at parked
      exact parked
    | granted free =>
      have kept := availability_health (k.refresh now) now window
      exact kept.trans (k.refresh_of_healthy now (stands.healthy now))
    | tidied _ tidied =>
      rcases tidied with rfl | rfl
      · exact k.refresh_of_healthy now (stands.healthy now)
      · rw [availability_health]
        exact k.refresh_of_healthy now (stands.healthy now)
    | untouched => exact stands.ok
  refine ⟨ok, turn.cap.trans stands.cap, ?_⟩
  rw [turn.ok, stands.successes, List.countP_append]
  cases o with
  | none => rfl
  | some o => cases success : o.isSuccess <;> simp [success]

end Stands

end KeyState

namespace Pool

variable (host : Host) (tokens : List String) (cfg : PoolConfig)

/-- A key that has been reliable over a run is not parked at its end. -/
theorem stands_run {cs : List Call} {i : Nat} {k : KeyState}
    (here : ((new host tokens cfg).after cs).keys[i]? = some k)
    (reliable : Reliable ((cfg.monthlyLimits[i]?).join) (cs.filterMap (Call.recorded i))) :
    k.Stands ((cfg.monthlyLimits[i]?).join) (cs.filterMap (Call.recorded i)) := by
  induction cs using List.reverseRecOn generalizing k with
  | nil =>
    obtain ⟨token, rfl⟩ := new_key host tokens cfg here
    exact ⟨rfl, rfl, rfl⟩
  | append_singleton cs c ih =>
    rw [after_concat] at here
    obtain ⟨k₀, before, change⟩ := step_key_inv _ here
    have whole : (cs ++ [c]).filterMap (Call.recorded i) =
        cs.filterMap (Call.recorded i) ++ (c.recorded i).toList := by
      rw [List.filterMap_append]
      exact congrArg _ (filterMap_toList (Call.recorded i) (some c))
    rw [whole] at reliable ⊢
    exact (ih before reliable.of_append).turn reliable change.turn

variable {p : Pool} {now : Instant} {i : Nat} {k : KeyState}

/-- With a healthy key in the pool, `acquire` gives up only for want of time. -/
theorem acquireTurn_refused {call : AcquireCall} {e : AcquireError} (here : p.keys[i]? = some k)
    (healthy : k.Healthy now) (ends : (p.acquireTurn now call).2 = .ends (.error e)) :
    ∃ retryAfter, e = .saturated retryAfter := by
  have cases := p.tryAcquire_cases now call.request
  unfold acquireTurn at ends
  generalize p.tryAcquire now call.request = result at cases ends
  cases cases with
  | leased j k' there candidate free best => cases ends
  | waits u noneFree least healthy' =>
    dsimp only at ends
    split at ends
    · cases ends
      exact ⟨_, rfl⟩
    · cases ends
  | unavailable summary sick => exact absurd healthy (p.parked_of_sick now call.request sick here)

end Pool

/-- What a client may be told: nothing of a key that failed, or of there being no key to use. -/
inductive ProxyResponse.Spared : ProxyResponse → Prop
  | forwarded (up : UpstreamResponse) (kept : retriedStatus up.status = false) : Spared (.forwarded up)
  | saturated (retryAfter : Duration) : Spared (.error (acquireFailed (.saturated retryAfter)))

/-- How many of the keys are not counted on. -/
def unreliable (good : Nat → Bool) (n : Nat) : Nat := (List.range n).countP fun i => !good i

theorem length_le_unreliable (good : Nat → Bool) {n : Nat} {tried : List Nat} (fresh : tried.Nodup)
    (inside : ∀ i ∈ tried, i < n) : tried.length ≤ tried.countP good + unreliable good n := by
  have split := tried.length_eq_countP_add_countP good
  have part : tried.Subperm (List.range n) :=
    List.Nodup.subperm fresh fun i member => List.mem_range.mpr (inside i member)
  have most := List.Subperm.countP_le (fun i => !good i) part
  simp only [Bool.not_eq_true, Bool.decide_eq_false] at split
  unfold unreliable
  omega

theorem countP_of_failed {good : Nat → Bool} {tried : List Nat}
    (failed : ∀ i ∈ tried, good i = false) : tried.countP good = 0 :=
  List.countP_eq_zero.mpr fun i member => ne_true_of_eq_false (failed i member)

/-- With more keys than are not counted on there is one that is. -/
theorem exists_good {good : Nat → Bool} {n : Nat} (few : unreliable good n < n) :
    ∃ i, i < n ∧ good i = true := by
  by_contra none
  have all : (List.range n).countP (fun i => !good i) = (List.range n).length := by
    rw [List.countP_eq_length]
    intro i member
    rw [Bool.not_eq_true']
    exact Bool.eq_false_of_not_eq_true fun some => none ⟨i, List.mem_range.mp member, some⟩
  rw [List.length_range] at all
  unfold unreliable at few
  omega

/-- Where a call is while keys are left to count on: only others have failed it so far. -/
inductive Phase.Backed (good : Nat → Bool) (tried : List Nat) : Phase → Prop
  | acquiring (failed : ∀ i ∈ tried, good i = false) : Backed good tried .acquiring
  | sending (lease : Lease) (earlier : List Nat) (failed : ∀ i ∈ earlier, good i = false)
      (last : tried = earlier ++ [lease.idx]) : Backed good tried (.sending lease)
  | building (up : UpstreamResponse) (label : String) (kept : retriedStatus up.status = false) :
      Backed good tried (.building up label)
  | answered (response : ProxyResponse) (spared : response.Spared) :
      Backed good tried (.answered response)

namespace Session

/-- No key is tried twice, and at most one that is counted on. -/
structure Backed (good : Nat → Bool) (n : Nat) (s : Session) : Prop where
  fresh : s.tried.Nodup
  inside : ∀ i ∈ s.tried, i < n
  count : s.attempts = s.tried.length
  lone : s.tried.countP good ≤ 1
  phase : s.phase.Backed good s.tried

/-- There is a healthy key that is counted on. -/
def Manned (good : Nat → Bool) (p : Pool) : Prop :=
  ∃ i k, p.keys[i]? = some k ∧ good i = true ∧ ∀ now, k.Healthy now

section Backed

variable {good : Nat → Bool} {n : Nat} {job : Job} {s s' : Session} {now : Instant} {lease : Lease}

theorem Backed.repool (backed : s.Backed good n) (p : Pool) :
    Backed good n { s with pool := p } :=
  ⟨backed.fresh, backed.inside, backed.count, backed.lone, backed.phase⟩

theorem Backed.attempts_le (backed : s.Backed good n) : s.attempts ≤ unreliable good n + 1 := by
  have most := length_le_unreliable good backed.fresh backed.inside
  have lone := backed.lone
  have count := backed.count
  omega

theorem Backed.spared (backed : s.Backed good n) {response : ProxyResponse}
    (answered : s.phase = .answered response) : response.Spared := by
  have phase := backed.phase
  rw [answered] at phase
  cases phase with
  | answered _ spared => exact spared

theorem refused_saturated (manned : Manned good s.pool) (acquiring : s.phase = .acquiring)
    {err : ErrorResponse} (answered : (step job s (.tries now)).phase = .answered (.error err)) :
    ∃ retryAfter, err = acquireFailed (.saturated retryAfter) := by
  obtain ⟨i, k, here, -, healthy⟩ := manned
  rw [step_tries acquiring] at answered
  unfold attempt at answered
  rcases turn : s.pool.acquireTurn now { made := now, deadline := job.deadline, request := s.tried }
    with ⟨p, (e | lease) | u⟩
  · rw [turn] at answered
    cases answered
    obtain ⟨retryAfter, rfl⟩ := Pool.acquireTurn_refused here (healthy now) (congrArg Prod.snd turn)
    exact ⟨retryAfter, rfl⟩
  · rw [turn] at answered
    cases answered
  · rw [turn] at answered
    dsimp only at answered
    rw [acquiring] at answered
    cases answered

theorem Backed.next (fresh : s.tried.Nodup) (inside : ∀ i ∈ s.tried, i < n)
    (count : s.attempts = s.tried.length) (failed : ∀ i ∈ s.tried, good i = false)
    (few : unreliable good n < job.maxAttempts) : (s.next job).Backed good n := by
  have none := countP_of_failed failed
  have most := length_le_unreliable good fresh inside
  rcases s.next_cases job with ⟨room, same⟩ | ⟨full, up, label, last, same⟩ | ⟨full, none, detail, same⟩
  · rw [same]
    exact ⟨fresh, inside, count, none.trans_le (Nat.zero_le 1), .acquiring failed⟩
  · omega
  · omega

/-- An attempt with a key that is counted on is the last one. -/
theorem Backed.received (backed : s.Backed good n) (keys : s.pool.keys.length = n)
    (few : unreliable good n < job.maxAttempts) (sending : s.phase = .sending lease)
    {result : Except UpstreamError UpstreamResponse}
    (serves : lease.idx < n → good lease.idx = true → (outcomeOf result).serves = true)
    (received : s.Received job now lease result s') : s'.Backed good n := by
  obtain ⟨fresh, inside, count, lone, phase⟩ := backed
  rw [sending] at phase
  cases phase with
  | sending _ earlier failed last =>
    have within : lease.idx < n := inside lease.idx (by simp [last])
    obtain ⟨k, here⟩ : ∃ k, s.pool.keys[lease.idx]? = some k :=
      ⟨_, List.getElem?_eq_getElem (within.trans_eq keys.symm)⟩
    have all (bad : good lease.idx = false) : ∀ i ∈ s.tried, good i = false := by
      intro i member
      rw [last] at member
      rcases List.mem_append.mp member with before | final
      · exact failed i before
      · rw [List.mem_singleton.mp final]
        exact bad
    cases received with
    | settles up p settled =>
      refine ⟨fresh, inside, count, lone, .building up lease.label ?_⟩
      rw [record_verdict here] at settled
      exact Bool.eq_false_of_not_eq_true fun retried =>
        settled ((k.digest_verdict now up.status _ _).mpr retried)
    | retries up p retry =>
      rw [record_verdict here] at retry
      have retried : retriedStatus up.status = true := (k.digest_verdict now up.status _ _).mp retry
      have bad : good lease.idx = false := by
        apply Bool.eq_false_of_not_eq_true
        intro good
        have served := serves within good
        simp [outcomeOf, UpstreamResponse.outcome, Outcome.serves, retried] at served
      exact .next fresh inside count (all bad) few
    | fails e p =>
      have bad : good lease.idx = false :=
        Bool.eq_false_of_not_eq_true fun good => Bool.false_ne_true (serves within good)
      exact .next fresh inside count (all bad) few

theorem Backed.leased (backed : s.Backed good n) (keys : s.pool.keys.length = n)
    (manned : Manned good s.pool) (acquiring : s.phase = .acquiring)
    (granted : s.pool.granted (.tryAcquire now s.tried) = some lease) (p : Pool) :
    Backed good n
      { s with
        pool := p, attempts := s.attempts + 1, tried := s.tried ++ [lease.idx]
        phase := .sending lease } := by
  obtain ⟨fresh, inside, count, lone, phase⟩ := backed
  rw [acquiring] at phase
  cases phase with
  | acquiring failed =>
    have leased : s.pool.leased (.tryAcquire now s.tried) = some lease.idx :=
      congrArg (Option.map Lease.idx) granted
    have new : lease.idx ∉ s.tried := by
      intro again
      obtain ⟨i, k, here, good, healthy⟩ := manned
      have tried := leased_again leased again here (healthy now)
      rw [failed i tried] at good
      cases good
    obtain ⟨-, -, k, -, here, -⟩ := s.pool.leased_cases leased
    refine ⟨?_, ?_, ?_, ?_, .sending lease s.tried failed rfl⟩
    · show (s.tried ++ [lease.idx]).Nodup
      rw [← List.concat_eq_append]
      exact fresh.concat new
    · intro i member
      rcases List.mem_append.mp member with before | last
      · exact inside i before
      · rw [List.mem_singleton.mp last, ← keys]
        exact (List.getElem?_eq_some_iff.mp here).1
    · show s.attempts + 1 = (s.tried ++ [lease.idx]).length
      rw [List.length_append, count, List.length_singleton]
    · show (s.tried ++ [lease.idx]).countP good ≤ 1
      rw [List.countP_append, countP_of_failed failed, Nat.zero_add]
      exact List.countP_le_length

theorem Backed.step (backed : s.Backed good n) (keys : s.pool.keys.length = n)
    (few : unreliable good n < job.maxAttempts) (manned : Manned good s.pool) (e : ProxyEvent)
    (serves : ∀ t i o, s.call? job e = some (.record t i o) → i < n → good i = true →
      o.serves = true) : (step job s e).Backed good n := by
  have turned := step_turned job s e
  generalize stepped : Session.step job s e = s' at turned
  cases turned with
  | idles _ p unleased unsent => exact backed.repool p
  | leases now p lease acquiring granted => exact backed.leased keys manned acquiring granted p
  | fails now p err acquiring unleased =>
    obtain ⟨retryAfter, same⟩ := refused_saturated manned acquiring (congrArg Session.phase stepped)
    refine ⟨backed.fresh, backed.inside, backed.count, backed.lone, .answered _ ?_⟩
    rw [same]
    exact .saturated retryAfter
  | receives now x lease sending =>
    refine backed.received keys few sending ?_ (receive_received ..)
    apply serves now
    unfold call?
    rw [sent?_replies sending]
    rfl
  | builds now up label building =>
    have phase := backed.phase
    rw [building] at phase
    cases phase with
    | building _ _ kept =>
      exact ⟨backed.fresh, backed.inside, backed.count, backed.lone, .answered _ (.forwarded _ kept)⟩

end Backed

end Session

end BraveRotator
