import BraveRotator.Key.Effects
import BraveRotator.Key.Streaks
import BraveRotator.Lib.Streak
import BraveRotator.Pool.Step

namespace BraveRotator

/-- An outcome recorded for a key: what it makes of an ok key, and what the health of the key is after
    it. -/
structure Recording where
  time : Instant
  outcome : Outcome
  fate : Health
  health : Health
  deriving DecidableEq

namespace Recording

def fails (r : Recording) : Bool := r.outcome.isFailure

def succeeds (r : Recording) : Bool := r.outcome.isSuccess

def tooMany (r : Recording) : Bool := r.outcome.isTooMany

def disables (r : Recording) : Bool := r.fate.isDisabled

def resets (r : Recording) : Bool := r.succeeds || r.disables

end Recording

namespace KeyState

def recording (k : KeyState) (now : Instant) (o : Outcome) : Recording where
  time := now
  outcome := o
  fate := k.fate now o
  health := (k.digest now o).1.health

/-- The counters of a key, told from the outcomes recorded for it. -/
structure Counted (log : List Recording) (k : KeyState) : Prop where
  failures : k.consecutiveFailures = Streak.count Recording.fails Recording.resets log
  below : k.consecutiveFailures < failThreshold
  tooMany : k.consecutive429 = wrapU32 (Streak.count Recording.tooMany Recording.resets log)
  strikes : k.disableStrikes = min (Streak.count Recording.disables Recording.succeeds log) u32Max
  disabledSince : k.disabledSince =
    ((Streak.since Recording.succeeds log).find? Recording.disables).map Recording.time

section Counted

variable {log : List Recording} {k k' : KeyState} {now : Instant} {window : Duration}

theorem Counted.congr (counted : k.Counted log) (failures : k'.consecutiveFailures = k.consecutiveFailures)
    (tooMany : k'.consecutive429 = k.consecutive429) (strikes : k'.disableStrikes = k.disableStrikes)
    (disabledSince : k'.disabledSince = k.disabledSince) : k'.Counted log :=
  ⟨failures.trans counted.failures, failures ▸ counted.below, tooMany.trans counted.tooMany,
    strikes.trans counted.strikes, disabledSince.trans counted.disabledSince⟩

theorem Counted.refresh (counted : k.Counted log) (now : Instant) : (k.refresh now).Counted log := by
  obtain ⟨_, _, _, same⟩ := k.refresh_fields now
  rw [same]
  exact counted.congr rfl rfl rfl rfl

theorem Counted.availability (counted : k.Counted log) (now : Instant) (window : Duration) :
    (k.availability now window).1.Counted log := by
  obtain ⟨_, _, same⟩ := k.availability_fields now window
  rw [same]
  exact counted.congr rfl rfl rfl rfl

theorem Counted.tidied (counted : k.Counted log) (tidied : k.Tidied now window k') :
    k'.Counted log := by
  rcases tidied with rfl | rfl
  · exact counted.refresh now
  · exact (counted.refresh now).availability now window

theorem strikesAfter_eq (park : Option Park) :
    k.strikesAfter park = if park.any Park.isDisable then k.nextStrike else k.disableStrikes := by
  rcases park with _ | ⟨length⟩ | ⟨length⟩ <;> rfl

theorem disables_of_success {o : Outcome} (success : o.isSuccess = true) :
    k.disables now o = false := by
  rw [disables_eq]
  cases o with
  | transport err => cases success
  | response status rl bodySnippet =>
    rw [parkFor_success _ _ _ (of_decide_eq_true success)]
    unfold successPark
    split
    · rfl
    · split <;> rfl

theorem parkFor_of_failure {o : Outcome} (failure : o.isFailure = true) :
    k.parkFor o = k.failurePark := by
  cases o with
  | transport err => rfl
  | response status rl bodySnippet =>
    exact k.parkFor_serverError rl bodySnippet (of_decide_eq_true failure)

/-- A failure disables the key when it is the third since the counter was set back. -/
theorem disables_of_failure {o : Outcome} (failure : o.isFailure = true)
    (below : k.consecutiveFailures < failThreshold) :
    k.disables now o = true ↔ k.consecutiveFailures + 1 = failThreshold := by
  have few : k.consecutiveFailures + 1 < 4294967296 := by
    unfold failThreshold at below
    omega
  rw [disables_eq, parkFor_of_failure failure, failurePark, wrapU32, Nat.mod_eq_of_lt few]
  unfold failThreshold at below ⊢
  split
  · exact iff_of_true rfl (by omega)
  · exact iff_of_false Bool.false_ne_true (by omega)

theorem Counted.strikes_pos_iff (counted : k.Counted log) :
    0 < k.disableStrikes ↔ k.disabledSince ≠ none := by
  have positive : 0 < u32Max := by decide
  rw [counted.strikes, counted.disabledSince, lt_min_iff, and_iff_left positive, Streak.count,
    List.countP_pos_iff, Ne, Option.map_eq_none_iff, List.find?_eq_none]
  simp only [not_forall, not_not, exists_prop]

theorem Counted.digest_disabledSince (counted : k.Counted log) (now : Instant) (o : Outcome) :
    (k.digest now o).1.disabledSince =
      ((Streak.since Recording.succeeds (log ++ [k.recording now o])).find? Recording.disables).map
        Recording.time := by
  have succeeds : (k.recording now o).succeeds = o.isSuccess := rfl
  have disables : (k.recording now o).disables = k.disables now o := rfl
  rw [(k.digest_streaks now o).disabledSince, Streak.since_concat, succeeds]
  cases o.isSuccess with
  | true =>
    have cleared : (if 0 < k.disableStrikes then none else k.disabledSince) = none := by
      split
      · rfl
      · rename_i unstruck
        by_contra since
        exact unstruck (counted.strikes_pos_iff.mpr since)
    exact cleared
  | false =>
    simp only [Bool.false_eq_true, if_false]
    rw [List.find?_append, counted.disabledSince, List.find?_singleton, disables]
    cases (Streak.since Recording.succeeds log).find? Recording.disables with
    | some first => cases k.disables now o <;> rfl
    | none => cases k.disables now o <;> rfl

theorem Counted.digest (counted : k.Counted log) (now : Instant) (o : Outcome) :
    (k.digest now o).1.Counted (log ++ [k.recording now o]) := by
  have streaks := k.digest_streaks now o
  have effect := k.digest_effect now o
  have reset : (k.recording now o).resets = k.resets now o := rfl
  have few : k.consecutiveFailures + 1 < 4294967296 := by
    have below := counted.below
    unfold failThreshold at below
    omega
  have failures : (k.digest now o).1.consecutiveFailures =
      Streak.count Recording.fails Recording.resets (log ++ [k.recording now o]) := by
    rw [streaks.failures, Streak.count_concat, reset, ← counted.failures, wrapU32,
      Nat.mod_eq_of_lt few]
    show _ = if _ then 0 else k.consecutiveFailures + if o.isFailure then 1 else 0
    cases o.isFailure <;> rfl
  constructor
  · exact failures
  · rw [streaks.failures, wrapU32, Nat.mod_eq_of_lt few]
    cases kept : k.resets now o with
    | true => exact (by decide : 0 < failThreshold)
    | false =>
      cases failure : o.isFailure with
      | false => exact counted.below
      | true =>
        have standing : k.disables now o = false := (Bool.or_eq_false_iff.mp kept).2
        have other : k.consecutiveFailures + 1 ≠ failThreshold := by
          rw [Ne, ← disables_of_failure failure counted.below, standing]
          exact Bool.false_ne_true
        exact Nat.lt_of_le_of_ne counted.below other
  · rw [streaks.tooMany, Streak.count_concat, reset, counted.tooMany]
    show _ = wrapU32 (if _ then 0 else _ + if o.isTooMany then 1 else 0)
    unfold wrapU32
    cases k.resets now o with
    | true => rfl
    | false => cases o.isTooMany <;> simp
  · rw [effect.strikes, Streak.count_concat, strikesAfter_eq, ← disables_eq k now o]
    show _ = min (if o.isSuccess then 0 else _ + if k.disables now o then 1 else 0) u32Max
    rw [nextStrike, counted.strikes]
    cases o.isSuccess with
    | true => rfl
    | false =>
      cases k.disables now o with
      | true => simp only [Bool.false_eq_true, if_false, if_true]; omega
      | false => rfl
  · exact counted.digest_disabledSince now o

theorem Counted.granted (counted : k.Counted log) :
    (((k.refresh now).availability now window).1.grant now).Counted log :=
  ((counted.refresh now).availability now window).congr rfl rfl rfl rfl

end Counted

end KeyState

namespace Pool

def recording? (i : Nat) (p : Pool) : Call → Option Recording
  | .record now idx o => if idx = i then p.keys[i]?.map (·.recording now o) else none
  | _ => none

/-- The outcomes recorded for key `i` in a run. -/
def log (i : Nat) (p : Pool) (cs : List Call) : List Recording := Runs.collect step (recording? i) p cs

section Log

variable {i : Nat} {p : Pool} {log : List Recording} {k k' : KeyState} {c : Call}

theorem counted_change (here : p.keys[i]? = some k) (counted : k.Counted log) {leased : Option Nat}
    (change : k.Change p.window i c leased k') :
    k'.Counted (log ++ (recording? i p c).toList) := by
  cases change with
  | digested now o =>
    have recorded : recording? i p (.record now i o) = some (k.recording now o) := by
      rw [recording?, if_pos rfl, here]
      rfl
    rw [recorded]
    exact counted.digest now o
  | bystander now j o other =>
    have silent : recording? i p (.record now j o) = none := if_neg other
    rw [silent]
    exact (List.append_nil log).symm ▸ counted
  | granted now exclude free => exact (List.append_nil log).symm ▸ counted.granted
  | tidied _ _ _ passive other tidied =>
    have silent : recording? i p c = none := by
      cases c with
      | record now j o => exact absurd rfl (passive now j o)
      | tryAcquire now exclude => rfl
      | snapshot now => rfl
    rw [silent]
    exact (List.append_nil log).symm ▸ counted.tidied tidied

end Log

/-- The run lemma: the counters of a key are those of the outcomes recorded for it. -/
theorem counted_run (host : Host) (tokens : List String) (cfg : PoolConfig) (cs : List Call) (i : Nat) :
    ∀ k, ((new host tokens cfg).after cs).keys[i]? = some k →
      k.Counted ((new host tokens cfg).log i cs) := by
  let Holds (log : List Recording) (p : Pool) : Prop :=
    ∀ k, p.keys[i]? = some k → k.Counted log
  have keep : ∀ log (p : Pool) c, Holds log p →
      Holds (log ++ (recording? i p c).toList) (p.step c) := by
    intro log p c counted k' there
    obtain ⟨k, here, change⟩ := p.step_key_inv there
    exact counted_change here (counted k here) change
  have start : Holds [] (new host tokens cfg) := by
    intro k here
    obtain ⟨token, rfl⟩ := new_key host tokens cfg here
    exact ⟨rfl, (by decide : 0 < failThreshold), rfl, rfl, rfl⟩
  exact Runs.collected_invariant' keep cs start

/-- What is known at each outcome recorded: the key before it, with its counters. -/
theorem log_split {host : Host} {tokens : List String} {cfg : PoolConfig} {cs : List Call} {i : Nat}
    {seen rest : List Recording} {r : Recording}
    (split : (new host tokens cfg).log i cs = seen ++ r :: rest) :
    ∃ k : KeyState, k.Counted seen ∧ r = k.recording r.time r.outcome := by
  obtain ⟨before, c, after, rfl, rfl, recorded, -⟩ := Runs.collect_split split
  cases c with
  | tryAcquire now exclude => cases recorded
  | snapshot now => cases recorded
  | record now j o =>
    by_cases same : j = i
    · rw [recording?, if_pos same] at recorded
      obtain ⟨k, here, rfl⟩ := Option.map_eq_some_iff.mp recorded
      exact ⟨k, counted_run host tokens cfg before i k here, rfl⟩
    · rw [recording?, if_neg same] at recorded
      cases recorded

end Pool

end BraveRotator
