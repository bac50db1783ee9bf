import BraveRotator.Traffic.Step

namespace BraveRotator

def Outcome.isRejection : Outcome → Bool
  | .response status _ _ => status = 401 ∨ status = 403
  | .transport _ => false

def authBackoff (n : Nat) : Duration := Backoff.doubling authBackoffBase authBackoffMax n

/-- What an event does to the health and the strikes of a key that is only ever rejected. -/
theorem KeyState.Turn.rejected {window : Duration} {now : Instant} {k k' : KeyState}
    {outcome : Option Outcome} {leased : Bool} (turn : k.Turn window now outcome leased k')
    (rejections : ∀ o ∈ outcome, o.isRejection = true) :
    (outcome ≠ none ∧ k'.disableStrikes = k.nextStrike ∧
        ∃ reason, k'.health = .disabled (now + authBackoff k.nextStrike) reason) ∨
      (outcome = none ∧ k'.disableStrikes = k.disableStrikes ∧
        (k'.health = .ok ∨ k'.health = k.health)) := by
  cases turn with
  | digested o =>
    have rejection := rejections o rfl
    cases o with
    | transport err => cases rejection
    | response status rl bodySnippet =>
      have auth : status = 401 ∨ status = 403 := of_decide_eq_true rejection
      have health := k.digest_health now (.response status rl bodySnippet)
      have strikes := (k.digest_effect now (.response status rl bodySnippet)).strikes
      rw [KeyState.isSuccess_eq_false (by omega)] at strikes
      rw [KeyState.parkFor_rejected _ _ _ auth] at health strikes
      exact .inl ⟨by simp, strikes, health⟩
  | granted free =>
    have ok := (KeyState.availability_ok_iff.mp free).1
    have strikes := (KeyState.availability_disableStrikes (k.refresh now) now window).trans
      (k.refresh_disableStrikes now)
    exact .inr ⟨rfl, strikes, .inl ((KeyState.availability_health ..).trans ok)⟩
  | tidied _ tidied =>
    have health : (k.refresh now).health = .ok ∨ (k.refresh now).health = k.health := by
      rw [KeyState.refresh_health]
      split
      · exact .inl rfl
      · exact .inr rfl
    rcases tidied with rfl | rfl
    · exact .inr ⟨rfl, k.refresh_disableStrikes now, health⟩
    · refine .inr ⟨rfl, by simp, ?_⟩
      rw [KeyState.availability_health]
      exact health
  | untouched => exact .inr ⟨rfl, rfl, .inr rfl⟩

namespace Traffic

variable (i : Nat)

def OnlyRejected (t : Traffic) (e : Event) : Prop := ∀ o ∈ recorded i t e, o.isRejection = true

instance OnlyRejected.decidable (t : Traffic) (e : Event) : Decidable (OnlyRejected i t e) := by
  unfold OnlyRejected
  infer_instance

def rejected (t : Traffic) (e : Event) : Option Instant := (recorded i t e).map fun _ => e.time

def passage (t : Traffic) (e : Event) : Option Instant :=
  match t.key? i, (t.step e).key? i with
  | some k, some k' => if k.health.isOk && !k'.health.isOk then some e.time else none
  | _, _ => none

/-- The number of the disabled period that a run ends in. -/
def periods (t : Traffic) (es : List Event) : Nat := (Runs.collect step (passage i) t es).length

def lastRejection (t : Traffic) (es : List Event) : Option Instant :=
  (Runs.collect step (rejected i) t es).getLast?

/-- All along the `n`-th disabled period of key `i`, the key is parked for the `n`-th backoff from the
    rejection that last set the park on. -/
def BackoffPerPeriod (t : Traffic) (es : List Event) : Prop :=
  ∀ seen rest k u reason, es = seen ++ rest → (t.after seen).key? i = some k →
    k.health = .disabled u reason →
    ∃ s, lastRejection i t seen = some s ∧ u = s + authBackoff (periods i t seen)

/-- A rejection finds the key `ok`, or with so many strikes that one more makes no difference. -/
def StrikesOnce (t : Traffic) (e : Event) : Prop :=
  ∀ k ∈ t.key? i, ∀ _ ∈ recorded i t e, k.health = .ok ∨ 5 ≤ k.disableStrikes

instance StrikesOnce.decidable (t : Traffic) (e : Event) : Decidable (StrikesOnce i t e) := by
  unfold StrikesOnce
  infer_instance

variable {i}

theorem authBackoff_of_five_le {n : Nat} (many : 5 ≤ n) : authBackoff n = authBackoffMax := by
  have reached : authBackoffMax ≤ authBackoffBase * 2^(n - 1) := by
    have power : 2^4 ≤ 2^(n - 1) := Nat.pow_le_pow_right (by decide) (by omega)
    calc authBackoffMax ≤ authBackoffBase * 2^4 := by decide
      _ ≤ authBackoffBase * 2^(n - 1) := Nat.mul_le_mul_left _ power
  exact Backoff.doubling_of_reached reached

theorem authBackoff_ne_succ {n : Nat} (counted : 0 < n) (few : n < 5) :
    authBackoff n ≠ authBackoff (n + 1) := by
  intro same
  have reached : authBackoffMax ≤ authBackoffBase * 2^(n - 1) :=
    (Backoff.doubling_eq_succ (by decide) counted).mp same
  have power : 2^(n - 1) ≤ 2^3 := Nat.pow_le_pow_right (by decide) (by omega)
  have short : authBackoffBase * 2^(n - 1) ≤ authBackoffBase * 2^3 := Nat.mul_le_mul_left _ power
  exact absurd (reached.trans short) (by decide)

section Step

variable {t : Traffic} {e : Event} {k k' : KeyState}

theorem rejected_step (here : t.key? i = some k) (there : (t.step e).key? i = some k')
    (only : OnlyRejected i t e) :
    (rejected i t e = some e.time ∧ k'.disableStrikes = k.nextStrike ∧
        (∃ reason, k'.health = .disabled (e.time + authBackoff k.nextStrike) reason) ∧
        (passage i t e).toList.length = if k.health = .ok then 1 else 0) ∨
      (rejected i t e = none ∧ k'.disableStrikes = k.disableStrikes ∧
        (k'.health = .ok ∨ k'.health = k.health) ∧ passage i t e = none) := by
  obtain ⟨_, there', turn⟩ := t.step_key here e
  obtain rfl := Option.some.inj (there.symm.trans there')
  have passage : passage i t e =
      if k.health.isOk && !k'.health.isOk then some e.time else none := by
    simp only [Traffic.passage, here, there]
  rw [passage, rejected]
  rcases turn.rejected only with ⟨some, strikes, reason, health⟩ | ⟨none, strikes, health⟩
  · obtain ⟨o, recording⟩ := Option.ne_none_iff_exists'.mp some
    refine .inl ⟨by rw [recording]; rfl, strikes, ⟨reason, health⟩, ?_⟩
    rw [health]
    cases k.health <;> rfl
  · refine .inr ⟨by rw [none]; rfl, strikes, health, ?_⟩
    rcases health with ok | same
    · rw [ok]
      cases k.health <;> rfl
    · rw [same]
      cases k.health <;> rfl

end Step

/-- The key is parked by its last rejection, for the backoff of its strikes. -/
def Scheduled (n : Nat) (last : Option Instant) (k : KeyState) : Prop :=
  k.health = .ok ∨ (1 ≤ n ∧ ∃ s reason, last = some s ∧
    k.health = .disabled (s + authBackoff k.disableStrikes) reason)

theorem periods_concat (t : Traffic) (es : List Event) (e : Event) :
    periods i t (es ++ [e]) = periods i t es + (passage i (t.after es) e).toList.length := by
  rw [periods, Runs.collect_append, List.length_append, Runs.collect_cons, Runs.collect_nil,
    List.append_nil]
  rfl

theorem lastRejection_concat (t : Traffic) (es : List Event) (e : Event) :
    lastRejection i t (es ++ [e]) = (rejected i (t.after es) e).or (lastRejection i t es) := by
  rw [lastRejection, Runs.collect_append, Runs.collect_cons, Runs.collect_nil, List.append_nil,
    List.getLast?_append]
  congr 1
  change ((rejected i (t.after es) e).toList).getLast? = _
  cases rejected i (t.after es) e <;> rfl

theorem scheduled_run {t : Traffic} {es : List Event}
    (start : ∀ k, t.key? i = some k → k.health = .ok)
    (only : Runs.Along step (OnlyRejected i) t es) :
    ∀ k, (t.after es).key? i = some k →
      Scheduled (periods i t es) (lastRejection i t es) k := by
  induction es using List.reverseRecOn with
  | nil => exact fun k here => .inl (start k here)
  | append_singleton es e ih =>
    rw [Runs.along_append] at only
    intro k' there
    rw [after_concat] at there
    obtain ⟨k, here⟩ := key_of_after (t.after es) [e] there
    have before := ih only.1 k here
    rw [periods_concat, lastRejection_concat]
    rcases rejected_step here there only.2.1 with
      ⟨rejected, strikes, ⟨reason, health⟩, passage⟩ | ⟨rejected, strikes, health, passage⟩
    · rw [rejected, passage]
      refine .inr ⟨?_, e.time, reason, rfl, by rw [strikes]; exact health⟩
      rcases before with ok | ⟨counted, -⟩
      · rw [if_pos ok]
        omega
      · omega
    · rw [rejected, passage]
      rcases health with ok | same
      · exact .inl ok
      · unfold Scheduled
        rw [same, strikes]
        exact before

/-- The strikes count the periods, at least until it makes no difference. -/
def Counted (n strikes : Nat) : Prop := strikes = n ∨ (5 ≤ n ∧ 5 ≤ strikes)

theorem counted_run {t : Traffic} {es : List Event}
    (start : ∀ k, t.key? i = some k → k.health = .ok ∧ k.disableStrikes = 0)
    (only : Runs.Along step (OnlyRejected i) t es) (once : Runs.Along step (StrikesOnce i) t es) :
    ∀ k, (t.after es).key? i = some k → Counted (periods i t es) k.disableStrikes := by
  induction es using List.reverseRecOn with
  | nil => exact fun k here => .inl (start k here).2
  | append_singleton es e ih =>
    rw [Runs.along_append] at only once
    intro k' there
    rw [after_concat] at there
    obtain ⟨k, here⟩ := key_of_after (t.after es) [e] there
    have before := ih only.1 once.1 k here
    rw [periods_concat]
    rcases rejected_step here there only.2.1 with
      ⟨rejected, strikes, -, passage⟩ | ⟨rejected, strikes, -, passage⟩
    · rw [passage, strikes]
      obtain ⟨o, recording, -⟩ := Option.map_eq_some_iff.mp rejected
      have large : u32Max = 4294967295 := rfl
      unfold Counted KeyState.nextStrike at *
      rcases once.2.1 k here o recording with ok | many
      · rw [if_pos ok]
        omega
      · split <;> omega
    · rw [passage, strikes]
      exact before

section New

variable (host : Host) (tokens : List String) (cfg : PoolConfig)

theorem new_unstruck {k : KeyState} (here : (new host tokens cfg).key? i = some k) :
    k.health = .ok ∧ k.disableStrikes = 0 := by
  obtain ⟨token, rfl⟩ := Pool.new_key host tokens cfg here
  exact ⟨rfl, rfl⟩

theorem backoff_of_strikesOnce {es : List Event}
    (only : Runs.Along step (OnlyRejected i) (new host tokens cfg) es)
    (once : Runs.Along step (StrikesOnce i) (new host tokens cfg) es) :
    BackoffPerPeriod i (new host tokens cfg) es := by
  intro seen rest k u reason split here disabled
  subst split
  rw [Runs.along_append] at only once
  have scheduled := scheduled_run (fun _ start => (new_unstruck host tokens cfg start).1) only.1 k here
  have counted := counted_run (fun _ => new_unstruck host tokens cfg) only.1 once.1 k here
  rcases scheduled with ok | ⟨-, s, reason', last, parked⟩
  · rw [ok] at disabled
    cases disabled
  · rw [parked] at disabled
    cases disabled
    refine ⟨s, last, ?_⟩
    rcases counted with same | ⟨many, many'⟩
    · rw [same]
    · rw [authBackoff_of_five_le many, authBackoff_of_five_le many']

/-- The step of the converse: where one strike too many is added, the park is too long at once. -/
theorem strikesOnce_of_backoff {seen rest : List Event} {e : Event}
    (only : Runs.Along step (OnlyRejected i) (new host tokens cfg) (seen ++ e :: rest))
    (once : Runs.Along step (StrikesOnce i) (new host tokens cfg) seen)
    (schedule : BackoffPerPeriod i (new host tokens cfg) (seen ++ e :: rest)) :
    StrikesOnce i ((new host tokens cfg).after seen) e := by
  intro k here o recording
  rw [Runs.along_append, Runs.along_cons] at only
  by_contra extra
  rw [not_or] at extra
  obtain ⟨k', there, -⟩ := step_key _ here e
  have scheduled := scheduled_run (fun _ start => (new_unstruck host tokens cfg start).1) only.1 k here
  have counted := counted_run (fun _ => new_unstruck host tokens cfg) only.1 once k here
  rcases scheduled with ok | ⟨positive, -⟩
  · exact extra.1 ok
  rcases rejected_step here there only.2.1 with
    ⟨rejected, strikes, ⟨reason, health⟩, passage⟩ | ⟨rejected, -⟩
  · rw [if_neg extra.1] at passage
    have parked : ((new host tokens cfg).after (seen ++ [e])).key? i = some k' := by
      rw [after_concat]
      exact there
    obtain ⟨s, last, same⟩ := schedule (seen ++ [e]) rest k' _ reason (by simp) parked health
    rw [lastRejection_concat, rejected, Option.some_or] at last
    cases last
    rw [periods_concat, passage, Nat.add_zero] at same
    have large : u32Max = 4294967295 := rfl
    unfold Counted at counted
    have strike : k.nextStrike = periods i (new host tokens cfg) seen + 1 := by
      unfold KeyState.nextStrike
      omega
    rw [strike] at same
    exact authBackoff_ne_succ positive (by omega) (Nat.add_left_cancel same).symm
  · rw [Traffic.rejected, recording] at rejected
    cases rejected

/-- For a key that is only ever rejected, the backoff goes by the disabled periods exactly when each
    rejection, up to the fifth strike, finds the key `ok`. -/
theorem backoff_per_period_iff {es : List Event}
    (only : Runs.Along step (OnlyRejected i) (new host tokens cfg) es) :
    BackoffPerPeriod i (new host tokens cfg) es ↔
      Runs.Along step (StrikesOnce i) (new host tokens cfg) es := by
  constructor
  · intro schedule
    have upTo : ∀ seen rest, es = seen ++ rest →
        Runs.Along step (StrikesOnce i) (new host tokens cfg) seen := by
      intro seen
      induction seen using List.reverseRecOn with
      | nil => exact fun _ _ => trivial
      | append_singleton seen e ih =>
        intro rest split
        rw [List.append_assoc, List.singleton_append] at split
        have once := ih (e :: rest) split
        subst split
        exact (Runs.along_append ..).mpr
          ⟨once, strikesOnce_of_backoff host tokens cfg only once schedule, trivial⟩
    exact upTo es [] (List.append_nil es).symm
  · exact backoff_of_strikesOnce host tokens cfg only

end New

theorem backoff_of_probes :
    BackoffPerPeriod 0 (ofTests ["key"] [])
      [.acquire 0 [], .answer 1000000000 0 (.response 401 none none),
        .acquire 301000000000 [], .answer 302000000000 1 (.response 403 none none)] :=
  (backoff_per_period_iff _ _ _ (by decide)).mpr (by decide)

/-- Two requests are out when the key is revoked. -/
def twoRejections : List Event :=
  [.acquire 0 [], .acquire 2000000000 [], .answer 3000000000 0 (.response 401 none none),
    .answer 4000000000 1 (.response 401 none none)]

theorem backoff_counts_requests :
    Runs.Along step (OnlyRejected 0) (ofTests ["key"] []) twoRejections ∧
      ¬ BackoffPerPeriod 0 (ofTests ["key"] []) twoRejections := by
  refine ⟨by decide, ?_⟩
  intro schedule
  have parked : ((((ofTests ["key"] []).after twoRejections).key? 0).get (by decide)).health =
      .disabled 604000000000 "HTTP 401" := by decide
  obtain ⟨s, last, same⟩ := schedule twoRejections [] _ _ _ rfl (Option.some_get _).symm parked
  have latest : lastRejection 0 (ofTests ["key"] []) twoRejections = some 4000000000 := by decide
  rw [latest] at last
  cases last
  exact absurd same (by decide)

end Traffic

end BraveRotator
