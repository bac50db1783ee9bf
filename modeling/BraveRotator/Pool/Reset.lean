import BraveRotator.Key.Answers
import BraveRotator.Key.Quota
import BraveRotator.Key.Streaks
import BraveRotator.Lib.Streak
import BraveRotator.Pool.Step

namespace BraveRotator

/-- What bears on when the month of a key is over. -/
inductive Note where
  | reported (reset : Instant)
  | reenabled

namespace Note

def isReenabled : Note → Bool
  | .reenabled => true
  | .reported _ => false

def reset? : Note → Option Instant
  | .reported reset => some reset
  | .reenabled => none

end Note

/-- How long a park for the month is where nothing tells when the month ends. -/
def Outcome.fallback : Outcome → Duration
  | .response _ rl _ => if rl.any (·.monthExhausted) then exhaustedFallback else overrideCapFallback
  | .transport _ => exhaustedFallback

namespace KeyState

/-- A park for the month ends at the last of the pending resets, if there are any. -/
def EndsAtReset (pending : List Instant) (health : Health) : Prop :=
  ∀ reset, pending.getLast? = some reset → health = .exhausted reset

section Park

variable {k : KeyState} {now : Instant} {o : Outcome}

theorem exhausted_iff : (k.fate now o).isExhausted = true ↔ k.Exhausts o := by
  rw [exhausts_iff]
  rcases (k.fate_parked now o).cases with ⟨park, fate⟩ | ⟨_, _, park, fate⟩ | ⟨_, park, fate⟩
  · simp [park, fate, Health.isExhausted]
  · simp [park, fate, Health.isExhausted]
  · simp [park, fate, Health.isExhausted]

/-- A park for the month goes by the outcome alone. -/
theorem parkFor_of_exhausts (exhausts : k.Exhausts o) :
    k.parkFor o = some (.exhaust (o.monthReset?.getD o.fallback)) := by
  cases o with
  | transport err => cases exhausts
  | response status rl bodySnippet =>
    simp only [Outcome.fallback, Outcome.monthReset?]
    rcases exhausts with ⟨range, spent⟩ | ⟨rfl, exhausted⟩
    · rw [k.parkFor_success rl bodySnippet range, successPark]
      by_cases exhausted : rl.any (·.monthExhausted) = true
      · rw [if_pos exhausted, if_pos exhausted]
      · have capped := spent.resolve_left exhausted
        rw [if_neg exhausted, if_neg exhausted, if_pos capped]
    · have branch : k.parkFor (.response 429 rl bodySnippet) = k.tooManyPark rl := rfl
      obtain ⟨r, rfl, spent⟩ := (Option.any_eq_true ..).mp exhausted
      rw [branch, tooManyPark, if_pos spent, if_pos exhausted]
      rfl

theorem digest_of_exhausts (exhausts : k.Exhausts o) :
    (k.digest now o).1.health = .exhausted (now + o.monthReset?.getD o.fallback) := by
  have parked := k.digest_health now o
  rw [parkFor_of_exhausts exhausts] at parked
  exact parked

theorem filter_pending_append (earlier : List Instant) (now : Instant) (reset : Option Duration) :
    (earlier ++ (reset.map (now + ·)).toList).filter (now < ·) =
      earlier.filter (now < ·) ++ ((reset.filter (0 < ·)).map (now + ·)).toList := by
  rw [List.filter_append]
  cases reset with
  | none => rfl
  | some r =>
    rw [Option.map_some, Option.toList_some, List.filter_singleton, Option.filter_some]
    by_cases positive : 0 < r
    · have pending : now < now + r := Nat.lt_add_of_pos_right positive
      rw [decide_eq_true pending, if_pos (decide_eq_true positive)]
      rfl
    · have nothing : r = 0 := Nat.eq_zero_of_not_pos positive
      have past : ¬ now < now + r := nothing ▸ lt_irrefl now
      rw [decide_eq_false past, if_neg (by simpa using positive)]
      rfl

/-- The park minds the resets reported earlier only if the outcome reports one that is to come, if
    none of them is, or if the fallback comes to the last of them. -/
theorem endsAtReset_iff (earlier : List Instant) (exhausts : k.Exhausts o) :
    EndsAtReset ((earlier ++ (o.monthReset?.map (now + ·)).toList).filter (now < ·))
        (k.digest now o).1.health ↔
      (∃ r, o.monthReset? = some r ∧ 0 < r) ∨
        ∀ reset, (earlier.filter (now < ·)).getLast? = some reset →
          o.monthReset? = none ∧ reset = now + o.fallback := by
  rw [digest_of_exhausts exhausts, filter_pending_append]
  unfold EndsAtReset
  cases reported : o.monthReset? with
  | none =>
    rw [Option.filter_none, Option.map_none, Option.toList_none, List.append_nil, Option.getD_none]
    constructor
    · intro ends
      refine .inr fun reset last => ⟨rfl, ?_⟩
      exact (Health.exhausted.inj (ends reset last)).symm
    · rintro (⟨r, never, -⟩ | falls) reset last
      · cases never
      · rw [(falls reset last).2]
  | some r =>
    rw [Option.getD_some, Option.filter_some]
    by_cases positive : 0 < r
    · rw [if_pos (decide_eq_true positive)]
      refine iff_of_true ?_ (.inl ⟨r, rfl, positive⟩)
      intro reset last
      rw [Option.map_some, Option.toList_some, List.getLast?_concat] at last
      rw [Option.some.inj last]
    · obtain rfl : r = 0 := Nat.eq_zero_of_not_pos positive
      rw [if_neg (by simp), Option.map_none, Option.toList_none, List.append_nil]
      constructor
      · intro ends
        refine .inr fun reset last => ?_
        -- the park ends at once, and the reset is still to come
        have pending := (List.mem_filter.mp (List.mem_of_getLast? last)).2
        rw [← Health.exhausted.inj (ends reset last)] at pending
        exact absurd pending (by simp)
      · rintro (⟨_, same, never⟩ | falls) reset last
        · cases same
          exact absurd never (lt_irrefl 0)
        · cases (falls reset last).1

end Park

end KeyState

namespace Pool

/-- The call ends the park of key `i` for the month. -/
def reenables (i : Nat) (p : Pool) (c : Call) : Bool :=
  p.keys[i]?.any (·.health.isExhausted) && (p.step c).keys[i]?.any (·.health.isOk)

def note? (i : Nat) (p : Pool) : Call → Option Note
  | .record now idx o =>
    if idx = i then o.monthReset?.map fun r => .reported (now + r) else none
  | c => if p.reenables i c then some .reenabled else none

/-- The ends of the month that the responses to key `i` have reported since it was last enabled again
    after one. -/
def resets (i : Nat) (p : Pool) (cs : List Call) : List Instant :=
  (Streak.since Note.isReenabled (Runs.collect step (note? i) p cs)).filterMap Note.reset?

/-- When an outcome parks key `i` for the month, the park ends at the reset reported last of those
    still to come. -/
def ParksUntilReset (i : Nat) (p : Pool) (cs : List Call) : Prop :=
  ∀ seen now o rest, cs = seen ++ .record now i o :: rest →
    ∀ k k' : KeyState, (p.after seen).keys[i]? = some k →
      (p.after (seen ++ [.record now i o])).keys[i]? = some k' →
      (k.fate now o).isExhausted = true →
      KeyState.EndsAtReset ((p.resets i (seen ++ [.record now i o])).filter (now < ·)) k'.health

/-- An outcome that uses up the month of key `i` reports a reset to come itself, or no such reset has
    been reported before, or it reports none and the last of those is a fallback away. -/
def ReportsReset (i : Nat) (p : Pool) (cs : List Call) : Prop :=
  ∀ seen now o rest, cs = seen ++ .record now i o :: rest →
    ∀ k : KeyState, (p.after seen).keys[i]? = some k → k.Exhausts o →
      (∃ r, o.monthReset? = some r ∧ 0 < r) ∨
        ∀ reset, ((p.resets i seen).filter (now < ·)).getLast? = some reset →
          o.monthReset? = none ∧ reset = now + o.fallback

variable (i : Nat) (p : Pool)

theorem resets_concat (seen : List Call) (now : Instant) (o : Outcome) :
    p.resets i (seen ++ [.record now i o]) =
      p.resets i seen ++ (o.monthReset?.map (now + ·)).toList := by
  unfold resets
  rw [Runs.collect_append, Runs.collect_cons, Runs.collect_nil, List.append_nil, note?, if_pos rfl]
  cases o.monthReset? with
  | none =>
    rw [Option.map_none, Option.toList_none, List.append_nil]
    exact (List.append_nil _).symm
  | some r =>
    rw [Option.map_some, Option.toList_some, Streak.since_concat, Note.isReenabled,
      if_neg Bool.false_ne_true, List.filterMap_append]
    rfl

theorem after_record {seen : List Call} {now : Instant} {o : Outcome} {k k' : KeyState}
    (here : (p.after seen).keys[i]? = some k)
    (there : (p.after (seen ++ [.record now i o])).keys[i]? = some k') : k' = (k.digest now o).1 := by
  rw [after_concat] at there
  simp only [step, serve, record_keys, List.getElem?_modify_eq, here] at there
  cases there
  rfl

theorem parks_until_reset_iff (cs : List Call) : p.ParksUntilReset i cs ↔ p.ReportsReset i cs := by
  constructor
  · intro right seen now o rest split k here exhausts
    have there : (p.after (seen ++ [.record now i o])).keys[i]? = some (k.digest now o).1 := by
      rw [after_concat]
      simp only [step, serve, record_keys, List.getElem?_modify_eq, here]
      rfl
    have ends := right seen now o rest split k _ here there (KeyState.exhausted_iff.mpr exhausts)
    rw [resets_concat] at ends
    exact (KeyState.endsAtReset_iff _ exhausts).mp ends
  · intro reports seen now o rest split k k' here there exhausted
    have exhausts := KeyState.exhausted_iff.mp exhausted
    rw [after_record i p here there, resets_concat]
    exact (KeyState.endsAtReset_iff _ exhausts).mpr (reports seen now o rest split k here exhausts)

/-- The first answer says that the month ends in a day; the second, that nothing is left of it. -/
def resetLeftOut : List Call :=
  [.tryAcquire 0 [],
    .record 1000000000 0 (.response 200
      (some { remaining := { month := some 1 }, reset := { month := some 86400 } }) none),
    .tryAcquire 2000000000 [],
    .record 3000000000 0 (.response 429 (some { remaining := { month := some 0 } }) none)]

/-- The park ends after six hours. -/
theorem fallback_while_known :
    (((ofTests ["key"] []).after resetLeftOut).keys[0]?).map KeyState.health =
        some (.exhausted (3000000000 + exhaustedFallback)) ∧
      ¬ (ofTests ["key"] []).ParksUntilReset 0 resetLeftOut := by
  refine ⟨by decide, ?_⟩
  intro right
  let spent : Outcome := .response 429 (some { remaining := { month := some 0 } }) none
  obtain ⟨seen, k, k', split, here, there, exhausted, known, health⟩ : ∃ seen k k',
      resetLeftOut = seen ++ [.record 3000000000 0 spent] ∧
        ((ofTests ["key"] []).after seen).keys[0]? = some k ∧
        ((ofTests ["key"] []).after (seen ++ [.record 3000000000 0 spent])).keys[0]? = some k' ∧
        (k.fate 3000000000 spent).isExhausted = true ∧
        ((ofTests ["key"] []).resets 0 (seen ++ [.record 3000000000 0 spent])).filter
          (3000000000 < ·) = [86401000000000] ∧
        k'.health = .exhausted 21603000000000 :=
    ⟨resetLeftOut.take 3, (((ofTests ["key"] []).after (resetLeftOut.take 3)).keys[0]?).get (by decide),
      (((ofTests ["key"] []).after resetLeftOut).keys[0]?).get (by decide), rfl, by decide, by decide,
      by decide, by decide, by decide⟩
  have ends := right seen 3000000000 spent [] split k k' here there exhausted
  rw [known, health] at ends
  exact absurd (ends 86401000000000 rfl) (by decide)

end Pool

end BraveRotator
