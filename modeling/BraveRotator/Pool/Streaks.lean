import BraveRotator.Lib.Backoff
import BraveRotator.Pool.History

namespace BraveRotator

section Failures

/-- The last two outcomes are failures, and neither of them disabled the key. -/
def TwoFailures (log : List Recording) : Prop :=
  ∃ before a b, log = before ++ [a, b] ∧ (a.fails = true ∧ a.disables = false) ∧
    b.fails = true ∧ b.disables = false

/-- A failure disables the key exactly when it is the third in a row. -/
def ThreeInARow (log : List Recording) : Prop :=
  ∀ seen r rest, log = seen ++ r :: rest → r.fails = true → (r.disables = true ↔ TwoFailures seen)

/-- No outcome that is neither a failure nor a success, and does not disable the key, comes between
    three failures, the first two of which have not disabled it. -/
def Uninterrupted (log : List Recording) : Prop :=
  ∀ before a more b more' c rest, log = before ++ a :: (more ++ b :: (more' ++ c :: rest)) →
    (a.fails = true ∧ a.disables = false) → (b.fails = true ∧ b.disables = false) →
    c.fails = true → (∀ r ∈ more ++ more', Streak.Neutral Recording.fails Recording.resets r) →
    more = [] ∧ more' = []

variable {log seen rest : List Recording} {r : Recording}

theorem resets_of_fails (fails : r.fails = true) : r.resets = r.disables := by
  have failed : r.succeeds = false := by
    unfold Recording.succeeds
    unfold Recording.fails at fails
    cases outcome : r.outcome with
    | transport err => rfl
    | response status rl bodySnippet =>
      rw [outcome] at fails
      have range : 500 ≤ status ∧ status ≤ 599 := of_decide_eq_true fails
      exact decide_eq_false (by omega)
  rw [Recording.resets, failed, Bool.false_or]

theorem disables_iff_count {k : KeyState} (counted : k.Counted seen)
    (recorded : r = k.recording r.time r.outcome) (fails : r.fails = true) :
    r.disables = true ↔ Streak.count Recording.fails Recording.resets seen = 2 := by
  have disables : r.disables = k.disables r.time r.outcome := congrArg Recording.disables recorded
  rw [disables, KeyState.disables_of_failure fails counted.below, counted.failures]
  exact Nat.succ_inj

theorem count_of_pair (before : List Recording) {more more' : List Recording} {a b : Recording}
    (first : a.fails = true ∧ a.disables = false) (second : b.fails = true ∧ b.disables = false)
    (neutral : ∀ r ∈ more ++ more', Streak.Neutral Recording.fails Recording.resets r) :
    Streak.count Recording.fails Recording.resets (before ++ a :: (more ++ b :: more')) =
      Streak.count Recording.fails Recording.resets before + 2 := by
  have split : before ++ a :: (more ++ b :: more') = (before ++ a :: more) ++ b :: more' := by
    rw [List.append_assoc, List.cons_append]
  rw [split, Streak.count_append_cons second.1 ((resets_of_fails second.1).trans second.2)
      fun r member => neutral r (List.mem_append_right _ member),
    Streak.count_append_cons first.1 ((resets_of_fails first.1).trans first.2)
      fun r member => neutral r (List.mem_append_left _ member)]

/-- Two failures count, with what leaves the count alone between and behind them. -/
theorem count_eq_two_iff :
    Streak.count Recording.fails Recording.resets seen = 2 ↔
      ∃ before a more b more', seen = before ++ a :: (more ++ b :: more') ∧
        (a.fails = true ∧ a.disables = false) ∧ (b.fails = true ∧ b.disables = false) ∧
        (∀ r ∈ more ++ more', Streak.Neutral Recording.fails Recording.resets r) ∧
        Streak.count Recording.fails Recording.resets before = 0 := by
  constructor
  · intro two
    obtain ⟨front, b, more', rfl, fails', kept', neutral', one⟩ := Streak.count_eq_succ_iff.mp two
    obtain ⟨before, a, more, rfl, fails, kept, neutral, none⟩ := Streak.count_eq_succ_iff.mp one
    refine ⟨before, a, more, b, more', by rw [List.append_assoc, List.cons_append],
      ⟨fails, (resets_of_fails fails).symm.trans kept⟩,
      ⟨fails', (resets_of_fails fails').symm.trans kept'⟩, ?_, none⟩
    intro r member
    rcases List.mem_append.mp member with member | member
    · exact neutral r member
    · exact neutral' r member
  · rintro ⟨before, a, more, b, more', rfl, first, second, neutral, none⟩
    rw [count_of_pair before first second neutral, none]

/-- Two failures at the end leave no room for anything neutral around them. -/
theorem TwoFailures.adjacent {before more more' : List Recording} {a b : Recording}
    (two : TwoFailures (before ++ a :: (more ++ b :: more')))
    (neutral : ∀ r ∈ more ++ more', Streak.Neutral Recording.fails Recording.resets r) :
    more = [] ∧ more' = [] := by
  obtain ⟨front, a', b', same, first, second⟩ := two
  have notNeutral {r : Recording} (fails : r.fails = true) (member : r ∈ more ++ more') : False := by
    rw [(neutral r member).1] at fails
    cases fails
  exact Streak.adjacent_of_last_two same.symm
    (fun member => notNeutral first.1 (List.mem_append_left _ member))
    fun member => notNeutral second.1 (List.mem_append_right _ member)

theorem TwoFailures.last (two : TwoFailures seen) : seen.getLast?.any Recording.fails = true := by
  obtain ⟨before, a, b, rfl, -, fails, -⟩ := two
  rw [List.append_cons, List.getLast?_concat]
  exact fails

end Failures

section Unexplained

def Recording.unexplained (r : Recording) : Bool := r.outcome.isUnexplained

/-- The last four outcomes are 429s without rate-limit headers. -/
def FourUnexplained (log : List Recording) : Prop :=
  ∃ before last, log = before ++ last ∧ last.length = 4 ∧ ∀ r ∈ last, r.unexplained = true

/-- A 429 disables the key only as the fifth in a row without rate-limit headers. -/
def UnexplainedInARow (log : List Recording) : Prop :=
  ∀ seen r rest, log = seen ++ r :: rest → r.tooMany = true → r.disables = true →
    r.unexplained = true ∧ FourUnexplained seen

/-- When a 429 without rate-limit headers finds four 429s of any kind counted (in a `u32`) since the
    last success or disabling, the last four outcomes are such 429s too. -/
def CountsUnexplained (log : List Recording) : Prop :=
  ∀ seen r rest, log = seen ++ r :: rest → r.unexplained = true →
    unexplained429Threshold ≤ wrapU32 (Streak.count Recording.tooMany Recording.resets seen + 1) →
    FourUnexplained seen

variable {log seen : List Recording} {r : Recording}

theorem disables_of_tooMany {k : KeyState} (counted : k.Counted seen)
    (recorded : r = k.recording r.time r.outcome) (tooMany : r.tooMany = true) :
    r.disables = true ↔ r.unexplained = true ∧ unexplained429Threshold ≤
      wrapU32 (Streak.count Recording.tooMany Recording.resets seen + 1) := by
  have disables : r.disables = k.disables r.time r.outcome := congrArg Recording.disables recorded
  have next : wrapU32 (k.consecutive429 + 1) =
      wrapU32 (Streak.count Recording.tooMany Recording.resets seen + 1) := by
    rw [counted.tooMany]
    exact Nat.mod_add_mod ..
  rw [disables, KeyState.disables_eq, ← next]
  unfold Recording.unexplained
  unfold Recording.tooMany at tooMany
  cases outcome : r.outcome with
  | transport err =>
    rw [outcome] at tooMany
    cases tooMany
  | response status rl bodySnippet =>
    rw [outcome] at tooMany
    obtain rfl : status = 429 := of_decide_eq_true tooMany
    have park : k.parkFor (.response 429 rl bodySnippet) = k.tooManyPark rl := rfl
    rw [park]
    unfold KeyState.tooManyPark
    cases rl with
    | some info =>
      refine iff_of_false ?_ fun both => Bool.false_ne_true both.1
      dsimp only
      split
      · exact Bool.false_ne_true
      · exact Bool.false_ne_true
    | none =>
      dsimp only
      split
      · rename_i reached
        exact iff_of_true rfl ⟨rfl, reached⟩
      · rename_i short
        exact iff_of_false Bool.false_ne_true fun both => short both.2

theorem tooMany_of_unexplained (unexplained : r.unexplained = true) : r.tooMany = true := by
  unfold Recording.unexplained at unexplained
  unfold Recording.tooMany
  cases outcome : r.outcome with
  | transport err =>
    rw [outcome] at unexplained
    cases unexplained
  | response status rl bodySnippet =>
    rw [outcome] at unexplained
    have both : status = 429 ∧ rl = none := of_decide_eq_true unexplained
    exact decide_eq_true both.1

theorem FourUnexplained.last (four : FourUnexplained seen) :
    seen.getLast?.any Recording.unexplained = true := by
  obtain ⟨before, last, rfl, length, all⟩ := four
  rcases List.eq_nil_or_concat last with rfl | ⟨init, r, rfl⟩
  · cases length
  · rw [List.concat_eq_append, ← List.append_assoc, List.getLast?_concat]
    exact all r (by simp)

end Unexplained

section Backoff

/-- The first wait and the longest one for what disables a key with the outcome. -/
def Outcome.backoff? : Outcome → Option (Duration × Duration)
  | .transport _ => some (failBackoffBase, failBackoffMax)
  | .response status _ _ =>
    if 500 ≤ status ∧ status ≤ 599 then some (failBackoffBase, failBackoffMax)
    else if status = 401 ∨ status = 403 then some (authBackoffBase, authBackoffMax)
    else if status = 429 then some (unexplained429Backoff, unexplained429Backoff)
    else none

/-- A cooldown ends after a wait that doubles with each time the key has been disabled, by whatever
    cause, since its last success. -/
def BackoffByHistory (log : List Recording) : Prop :=
  ∀ seen r rest, log = seen ++ r :: rest → r.disables = true →
    ∃ base ceiling reason, r.outcome.backoff? = some (base, ceiling) ∧
      r.health = .disabled (r.time + min (base *
        2^(Streak.count Recording.disables Recording.succeeds (seen ++ [r]) - 1)) ceiling) reason

variable {k : KeyState} {o : Outcome} {base ceiling : Duration}

theorem backoff_reached (backoff : o.backoff? = some (base, ceiling)) :
    ceiling ≤ base * 2^16 ∧ Duration.asSecs (base * 2^16) ≤ u64Max := by
  cases o with
  | transport err =>
    cases backoff
    decide
  | response status rl bodySnippet =>
    simp only [Outcome.backoff?] at backoff
    split at backoff
    · cases backoff
      decide
    · split at backoff
      · cases backoff
        decide
      · split at backoff
        · cases backoff
          decide
        · cases backoff

/-- What disables a key parks it for the backoff of its cause, by the strikes that it has. -/
theorem parkFor_disable {length : Duration} (parked : k.parkFor o = some (.disable length)) :
    ∃ base ceiling, o.backoff? = some (base, ceiling) ∧
      length = Backoff.doubling base ceiling k.nextStrike := by
  cases KeyState.parks_of_parkFor parked with
  | unexplained =>
    have reached : unexplained429Backoff ≤ unexplained429Backoff * 2 ^ (k.nextStrike - 1) :=
      Nat.le_mul_of_pos_right _ (Nat.two_pow_pos _)
    exact ⟨_, _, rfl, (Backoff.doubling_of_reached reached).symm⟩
  | rejected status rl bodySnippet auth =>
    have client : ¬ (500 ≤ status ∧ status ≤ 599) := by omega
    exact ⟨_, _, (if_neg client).trans (if_pos auth), rfl⟩
  | serverError status rl bodySnippet range => exact ⟨_, _, if_pos range, rfl⟩
  | transport => exact ⟨_, _, rfl, rfl⟩

theorem nextStrike_eq {seen : List Recording} {r : Recording} (counted : k.Counted seen)
    (disables : r.disables = true) (failed : r.succeeds = false) :
    k.nextStrike =
      min (Streak.count Recording.disables Recording.succeeds (seen ++ [r])) u32Max := by
  rw [KeyState.nextStrike, counted.strikes, Streak.count_concat, failed, disables]
  show min (min _ u32Max + 1) u32Max = min (_ + 1) u32Max
  omega

end Backoff

namespace Pool

section Failures

variable (host : Host) (tokens : List String) (cfg : PoolConfig) (cs : List Call) (i : Nat)

/-- Failures disable a key by threes in a row exactly when nothing neutral comes between three of
    them. -/
theorem three_in_a_row_iff :
    ThreeInARow ((new host tokens cfg).log i cs) ↔ Uninterrupted ((new host tokens cfg).log i cs) := by
  constructor
  · intro right before a more b more' c rest split first second fails neutral
    have regroup : (new host tokens cfg).log i cs = (before ++ a :: (more ++ b :: more')) ++ c :: rest := by
      rw [split]
      simp
    obtain ⟨k, counted, recorded⟩ := log_split regroup
    have count := count_of_pair before first second neutral
    have below := counted.below
    rw [counted.failures, count] at below
    have none : Streak.count Recording.fails Recording.resets before = 0 := by
      unfold failThreshold at below
      omega
    have disables := (disables_iff_count counted recorded fails).mpr (by rw [count, none])
    exact ((right _ _ _ regroup fails).mp disables).adjacent neutral
  · intro alone seen r rest split fails
    obtain ⟨k, counted, recorded⟩ := log_split split
    rw [disables_iff_count counted recorded fails]
    constructor
    · intro two
      obtain ⟨before, a, more, b, more', rfl, first, second, neutral, -⟩ := count_eq_two_iff.mp two
      have regroup : (new host tokens cfg).log i cs =
          before ++ a :: (more ++ b :: (more' ++ r :: rest)) := by
        rw [split]
        simp
      obtain ⟨rfl, rfl⟩ := alone _ _ _ _ _ _ _ regroup first second fails neutral
      exact ⟨before, a, b, rfl, first, second⟩
    · rintro ⟨before, a, b, rfl, first, second⟩
      have neutral : ∀ r ∈ ([] ++ [] : List Recording),
          Streak.Neutral Recording.fails Recording.resets r :=
        fun r member => absurd member List.not_mem_nil
      have count := count_of_pair before first second neutral
      have below := counted.below
      rw [counted.failures] at below
      unfold failThreshold at below
      exact Nat.le_antisymm (Nat.le_of_lt_succ below) (count ▸ Nat.le_add_left 2 _)

/-- Two 500s, a 404 and one more 500, each on a lease of its own. -/
def interrupted : List Call :=
  [.tryAcquire 0 [], .record 1 0 (.response 500 none none),
    .tryAcquire 2000000000 [], .record 2000000001 0 (.response 500 none none),
    .tryAcquire 4000000000 [], .record 4000000001 0 (.response 404 none none),
    .tryAcquire 6000000000 [], .record 6000000001 0 (.response 500 none none)]

theorem interrupted_disables : ¬ ThreeInARow ((ofTests ["key"] []).log 0 interrupted) := by
  intro right
  obtain ⟨seen, r, split, fails, disables, sound⟩ : ∃ seen r,
      (ofTests ["key"] []).log 0 interrupted = seen ++ r :: [] ∧ r.fails = true ∧
        r.disables = true ∧ seen.getLast?.any Recording.fails = false :=
    ⟨((ofTests ["key"] []).log 0 interrupted).take 3,
      (((ofTests ["key"] []).log 0 interrupted)[3]?).get (by decide), by decide, by decide, by decide,
      by decide⟩
  have last := ((right seen r [] split fails).mp disables).last
  rw [sound] at last
  cases last

/-- Only 429s without rate-limit headers bring about that a 429 disables a key exactly when none of
    another kind is counted along with them. -/
theorem unexplained_in_a_row_iff :
    UnexplainedInARow ((new host tokens cfg).log i cs) ↔
      CountsUnexplained ((new host tokens cfg).log i cs) := by
  constructor
  · intro right seen r rest split unexplained reached
    obtain ⟨k, counted, recorded⟩ := log_split split
    have tooMany := tooMany_of_unexplained unexplained
    have disables := (disables_of_tooMany counted recorded tooMany).mpr ⟨unexplained, reached⟩
    exact (right seen r rest split tooMany disables).2
  · intro only seen r rest split tooMany disables
    obtain ⟨k, counted, recorded⟩ := log_split split
    obtain ⟨unexplained, reached⟩ := (disables_of_tooMany counted recorded tooMany).mp disables
    exact ⟨unexplained, only seen r rest split unexplained reached⟩

/-- Four 429s that tell about the limits, and one that does not. -/
def explained : List Call :=
  let told : Outcome := .response 429 (some { limit := { second := some 1 } }) none
  [.tryAcquire 0 [], .record 1 0 told, .tryAcquire 3000000000 [], .record 3000000001 0 told,
    .tryAcquire 6000000000 [], .record 6000000001 0 told,
    .tryAcquire 9000000000 [], .record 9000000001 0 told,
    .tryAcquire 12000000000 [], .record 12000000001 0 (.response 429 none none)]

theorem explained_disables : ¬ UnexplainedInARow ((ofTests ["key"] []).log 0 explained) := by
  intro right
  obtain ⟨seen, r, split, tooMany, disables, told⟩ : ∃ seen r,
      (ofTests ["key"] []).log 0 explained = seen ++ r :: [] ∧ r.tooMany = true ∧
        r.disables = true ∧ seen.getLast?.any Recording.unexplained = false :=
    ⟨((ofTests ["key"] []).log 0 explained).take 4,
      (((ofTests ["key"] []).log 0 explained)[4]?).get (by decide), by decide, by decide, by decide,
      by decide⟩
  have last := (right seen r [] split tooMany disables).2.last
  rw [told] at last
  cases last

/-- The backoff of a key is a function of its history, and is computed without an overflow. -/
theorem backoff_by_history :
    BackoffByHistory ((new host tokens cfg).log i cs) ∧
      ∀ (o : Outcome) (base ceiling : Duration) (strikes : Nat),
        o.backoff? = some (base, ceiling) →
          1 <<< min (strikes - 1) 16 ≤ u32Max ∧
            Duration.asSecs (base * 1 <<< min (strikes - 1) 16) ≤ u64Max := by
  constructor
  · intro seen r rest split disables
    obtain ⟨k, counted, recorded⟩ := log_split split
    have disabled : k.disables r.time r.outcome = true :=
      (congrArg Recording.disables recorded).symm.trans disables
    have failed : r.succeeds = false := by
      by_contra succeeded
      rw [Bool.not_eq_false] at succeeded
      rw [KeyState.disables_of_success succeeded] at disabled
      cases disabled
    rw [KeyState.disables_eq, Option.any_eq_true] at disabled
    obtain ⟨park, parked, isDisable⟩ := disabled
    obtain ⟨length⟩ | ⟨length⟩ := park
    · have health := k.digest_health r.time r.outcome
      rw [parked] at health
      obtain ⟨reason, health⟩ := health
      obtain ⟨base, ceiling, backoff, same⟩ := parkFor_disable parked
      refine ⟨base, ceiling, reason, backoff, ?_⟩
      rw [same, nextStrike_eq counted disables failed,
        Backoff.doubling_min (backoff_reached backoff).1 (by decide)] at health
      exact (congrArg Recording.health recorded).trans health
    · cases isDisable
  · intro o base ceiling strikes backoff
    have few : 1 <<< min (strikes - 1) 16 ≤ 2^16 := by
      rw [Nat.one_shiftLeft]
      exact Nat.pow_le_pow_right (by decide) (min_le_right _ _)
    refine ⟨few.trans (by decide), ?_⟩
    have le : base * 1 <<< min (strikes - 1) 16 ≤ base * 2^16 := Nat.mul_le_mul_left base few
    exact (Nat.div_le_div_right le).trans (backoff_reached backoff).2

end Failures

end Pool

end BraveRotator
