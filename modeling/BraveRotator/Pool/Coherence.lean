import BraveRotator.Key.Quota
import BraveRotator.Pool.History

namespace BraveRotator

theorem Health.isDisabled_iff {health : Health} :
    health.isDisabled = true ↔ ∃ u reason, health = .disabled u reason := by
  cases health with
  | ok => exact iff_of_false Bool.false_ne_true (by rintro ⟨_, _, ⟨⟩⟩)
  | exhausted u => exact iff_of_false Bool.false_ne_true (by rintro ⟨_, _, ⟨⟩⟩)
  | disabled u reason => exact iff_of_true rfl ⟨u, reason, rfl⟩

namespace KeyState

/-- A disabled key has strikes, and has been disabled since some instant that is past. -/
structure Coherent (now : Instant) (k : KeyState) : Prop where
  disabled : ∀ u reason, k.health = .disabled u reason →
    1 ≤ k.disableStrikes ∧ ∃ t, k.disabledSince = some t ∧ t ≤ now
  since : k.disabledSince ≠ none ↔ 0 < k.disableStrikes
  failures : k.consecutiveFailures < failThreshold

def StruckWhenDisabled (k : KeyState) : Prop := k.health.isDisabled = true → 0 < k.disableStrikes

section Change

variable {k k' : KeyState} {now : Instant} {o : Outcome} {window : Duration}

/-- Recording an outcome leaves a disabled key without strikes only if it is a success with quota
    left. -/
theorem digest_struck_iff (struck : k.StruckWhenDisabled) :
    (k.digest now o).1.StruckWhenDisabled ↔
      ¬ (o.isSuccess = true ∧ k.health.isDisabled = true ∧ ¬ k.MonthOver o) := by
  have strikes := (k.digest_effect now o).strikes
  unfold StruckWhenDisabled at struck ⊢
  rw [strikes]
  cases success : o.isSuccess with
  | true =>
    rw [if_pos rfl, ← parkFor_of_success success]
    have disables := k.disables_eq now o
    rw [disables_of_success success] at disables
    rcases (k.digest_health now o).cases with ⟨park, health⟩ | ⟨_, _, park, health⟩ | ⟨_, park, health⟩
    · rw [health, park]
      simp
    · rw [park] at disables
      cases disables
    · rw [health, park]
      refine iff_of_true ?_ ?_
      · intro disabled
        cases disabled
      · rintro ⟨-, -, unparked⟩
        cases unparked
  | false =>
    refine iff_of_true ?_ fun late => Bool.false_ne_true late.1
    rw [if_neg Bool.false_ne_true, strikesAfter_eq]
    rcases (k.digest_health now o).cases with ⟨park, health⟩ | ⟨_, _, park, health⟩ | ⟨_, park, health⟩
    · rw [health, park]
      exact struck
    · intro _
      rw [park]
      exact lt_min (Nat.succ_pos _) (by decide : 0 < u32Max)
    · rw [health]
      intro disabled
      cases disabled

theorem tidied_struck (struck : k.StruckWhenDisabled) (tidied : k.Tidied now window k') :
    k'.StruckWhenDisabled := by
  have refreshed : (k.refresh now).StruckWhenDisabled := by
    unfold StruckWhenDisabled
    rw [refresh_health, refresh_disableStrikes]
    split
    · intro disabled
      cases disabled
    · exact struck
  rcases tidied with rfl | rfl
  · exact refreshed
  · unfold StruckWhenDisabled
    rw [availability_health, availability_disableStrikes]
    exact refreshed

theorem granted_struck (free : ((k.refresh now).availability now window).2 = .ok ()) :
    (((k.refresh now).availability now window).1.grant now).StruckWhenDisabled := by
  have ok : (((k.refresh now).availability now window).1.grant now).health = .ok :=
    ((k.refresh now).availability_health now window).trans (availability_ok_iff.mp free).1
  intro disabled
  rw [ok] at disabled
  cases disabled

end Change

/-- The call does not record a success for a disabled key that the success leaves disabled. -/
def RecoversInTime (k : KeyState) (i : Nat) (c : Call) : Prop :=
  ∀ o, c.recorded i = some o → ¬ (o.isSuccess = true ∧ k.health.isDisabled = true ∧ ¬ k.MonthOver o)

theorem Change.struck_iff {k k' : KeyState} {window : Duration} {i : Nat} {c : Call}
    {leased : Option Nat} (change : k.Change window i c leased k') (struck : k.StruckWhenDisabled) :
    k'.StruckWhenDisabled ↔ k.RecoversInTime i c := by
  have silent (quiet : c.recorded i = none) : k.RecoversInTime i c := by
    intro o recorded
    rw [quiet] at recorded
    cases recorded
  cases change with
  | digested now outcome =>
    have recorded : (Call.record now i outcome).recorded i = some outcome := if_pos rfl
    rw [digest_struck_iff struck]
    constructor
    · intro sound o same
      rw [recorded] at same
      cases same
      exact sound
    · intro recovers
      exact recovers outcome recorded
  | bystander now j outcome other => exact iff_of_true struck (silent (if_neg other))
  | granted now exclude free => exact iff_of_true (granted_struck free) (silent rfl)
  | tidied _ _ _ passive other tidied =>
    refine iff_of_true (tidied_struck struck tidied) (silent ?_)
    cases c with
    | record now j o => exact absurd rfl (passive now j o)
    | tryAcquire now exclude => rfl
    | snapshot now => rfl

/-- Of the bookkeeping only the strikes of a disabled key are in doubt. -/
theorem Counted.coherent_iff {log : List Recording} {k : KeyState} {now : Instant}
    (counted : k.Counted log) (past : ∀ r ∈ log, r.time ≤ now) :
    k.Coherent now ↔ k.StruckWhenDisabled := by
  constructor
  · intro coherent disabled
    obtain ⟨u, reason, health⟩ := Health.isDisabled_iff.mp disabled
    exact (coherent.disabled u reason health).1
  · intro struck
    refine ⟨?_, counted.strikes_pos_iff.symm, counted.below⟩
    intro u reason health
    have positive : 0 < k.disableStrikes := struck (by rw [health]; rfl)
    refine ⟨positive, ?_⟩
    obtain ⟨t, since⟩ := Option.ne_none_iff_exists'.mp (counted.strikes_pos_iff.mp positive)
    have first := counted.disabledSince
    rw [since] at first
    obtain ⟨r, found, rfl⟩ := Option.map_eq_some_iff.mp first.symm
    exact ⟨r.time, since, past r ((List.rtakeWhile_suffix _ log).subset (List.mem_of_find?_eq_some found))⟩

end KeyState

/-- The latest clock reading so far. -/
def latest (cs : List Call) : Instant := cs.foldr (fun c t => max c.time t) 0

theorem le_latest {cs : List Call} {c : Call} (member : c ∈ cs) : c.time ≤ latest cs := by
  induction cs with
  | nil => cases member
  | cons c' cs ih =>
    rcases List.mem_cons.mp member with rfl | member
    · exact le_max_left _ _
    · exact (ih member).trans (le_max_right _ _)

namespace Pool

/-- The health and the counters of all keys fit together. -/
def Coherent (now : Instant) (p : Pool) : Prop :=
  ∀ (i : Nat) (k : KeyState), p.keys[i]? = some k → k.Coherent now

def RecoversInTime (p : Pool) (c : Call) : Prop :=
  ∀ (i : Nat) (k : KeyState), p.keys[i]? = some k → k.RecoversInTime i c

def StruckWhenDisabled (p : Pool) : Prop :=
  ∀ (i : Nat) (k : KeyState), p.keys[i]? = some k → k.StruckWhenDisabled

theorem step_struck_iff {p : Pool} (struck : p.StruckWhenDisabled) (c : Call) :
    (p.step c).StruckWhenDisabled ↔ p.RecoversInTime c := by
  constructor
  · intro after i k here
    obtain ⟨k', there, change⟩ := p.step_key here c
    exact (change.struck_iff (struck i k here)).mp (after i k' there)
  · intro recovers i k' there
    obtain ⟨k, here, change⟩ := p.step_key_inv there
    exact (change.struck_iff (struck i k here)).mpr (recovers i k here)

theorem new_struck (host : Host) (tokens : List String) (cfg : PoolConfig) :
    (new host tokens cfg).StruckWhenDisabled := by
  intro i k here
  obtain ⟨token, rfl⟩ := new_key host tokens cfg here
  intro disabled
  cases disabled

theorem log_time_le {p : Pool} {cs : List Call} {i : Nat} {r : Recording} (member : r ∈ p.log i cs) :
    r.time ≤ latest cs := by
  obtain ⟨seen, rest, split⟩ := List.append_of_mem member
  obtain ⟨before, c, after, rfl, -, recorded, -⟩ := Runs.collect_split split
  have same : c.time = r.time := by
    cases c with
    | tryAcquire now exclude => cases recorded
    | snapshot now => cases recorded
    | record now j o =>
      by_cases mine : j = i
      · rw [recording?, if_pos mine] at recorded
        obtain ⟨k, -, rfl⟩ := Option.map_eq_some_iff.mp recorded
        rfl
      · rw [recording?, if_neg mine] at recorded
        cases recorded
  exact same ▸ le_latest (List.mem_append_right _ List.mem_cons_self)

theorem coherent_iff (host : Host) (tokens : List String) (cfg : PoolConfig) (cs : List Call) :
    ((new host tokens cfg).after cs).Coherent (latest cs) ↔
      ((new host tokens cfg).after cs).StruckWhenDisabled := by
  have one (i : Nat) (k : KeyState) (here : ((new host tokens cfg).after cs).keys[i]? = some k) :
      k.Coherent (latest cs) ↔ k.StruckWhenDisabled :=
    (counted_run host tokens cfg cs i k here).coherent_iff fun _ member => log_time_le member
  constructor
  · intro coherent i k here
    exact (one i k here).mp (coherent i k here)
  · intro struck i k here
    exact (one i k here).mpr (struck i k here)

/-- The bookkeeping is coherent in all states of a run exactly when no success with quota left is
    recorded for a key while it is disabled. -/
theorem always_coherent_iff (host : Host) (tokens : List String) (cfg : PoolConfig) (cs : List Call) :
    (∀ seen rest, cs = seen ++ rest → ((new host tokens cfg).after seen).Coherent (latest seen)) ↔
      Runs.Along step RecoversInTime (new host tokens cfg) cs := by
  have keep (p : Pool) (c : Call) (struck : p.StruckWhenDisabled) :
      (p.step c).StruckWhenDisabled ↔ p.RecoversInTime c := step_struck_iff struck c
  rw [← Runs.always_iff keep (new_struck host tokens cfg)]
  constructor
  · intro coherent seen rest split
    exact (coherent_iff host tokens cfg seen).mp (coherent seen rest split)
  · intro struck seen rest split
    exact (coherent_iff host tokens cfg seen).mpr (struck seen rest split)

/-- Of two requests under way with a key that may send two a second, the first is rejected and the
    second succeeds. -/
def lateSuccess : List Call :=
  [.tryAcquire 0 [],
    .record 1000000000 0 (.response 200 (some { limit := { second := some 2 } }) none),
    .tryAcquire 2000000000 [], .tryAcquire 2000000001 [],
    .record 2500000000 0 (.response 401 none none), .record 2600000000 0 (.response 200 none none)]

theorem recovered_disabled :
    ¬ ∀ seen rest, lateSuccess = seen ++ rest →
      ((ofTests ["key"] []).after seen).Coherent (latest seen) := by
  intro coherent
  have left : ∃ k, ((ofTests ["key"] []).after lateSuccess).keys[0]? = some k ∧
      k.disableStrikes = 0 ∧ k.health.isDisabled = true :=
    ⟨(((ofTests ["key"] []).after lateSuccess).keys[0]?).get (by decide), by decide, by decide,
      by decide⟩
  obtain ⟨k, here, unstruck, disabled⟩ := left
  obtain ⟨u, reason, health⟩ := Health.isDisabled_iff.mp disabled
  have struck :=
    ((coherent lateSuccess [] (List.append_nil _).symm 0 k here).disabled u reason health).1
  rw [unstruck] at struck
  cases struck

end Pool

end BraveRotator
