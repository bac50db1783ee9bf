import BraveRotator.Traffic.Step

namespace BraveRotator

/-- The count of successes, against which the cap is checked, moves with the recorded ones only. -/
theorem KeyState.Turn.ok {window : Duration} {now : Instant} {k k' : KeyState}
    {outcome : Option Outcome} {leased : Bool} (turn : k.Turn window now outcome leased k') :
    k'.stats.ok = k.stats.ok + (outcome.filter (·.isSuccess)).toList.length := by
  cases turn with
  | digested o =>
    rw [(k.digest_effect now o).ok, Option.filter_some]
    cases o.isSuccess <;> simp
  | granted free =>
    have stats := (KeyState.availability_stats (k.refresh now) now window).trans (k.refresh_stats now)
    have same := congrArg Stats.ok stats
    exact same
  | tidied _ tidied => rcases tidied with rfl | rfl <;> simp
  | untouched => rfl

theorem KeyState.Turn.cap {window : Duration} {now : Instant} {k k' : KeyState}
    {outcome : Option Outcome} {leased : Bool} (turn : k.Turn window now outcome leased k') :
    k'.monthlyCapOverride = k.monthlyCapOverride := by
  cases turn with
  | digested o => exact congrArg KeyState.Fixed.monthlyCapOverride (k.digest_effect now o).fixed
  | granted free =>
    exact (KeyState.availability_monthlyCapOverride (k.refresh now) now window).trans
      (k.refresh_monthlyCapOverride now)
  | tidied _ tidied => rcases tidied with rfl | rfl <;> simp
  | untouched => rfl

def Outcome.reportsExhausted : Outcome → Bool
  | .response _ rl _ => rl.any (·.monthExhausted)
  | .transport _ => false

namespace Traffic

section Successes

variable (i : Nat)

def succeeds (t : Traffic) (e : Event) : Option Outcome := (recorded i t e).filter (·.isSuccess)

def successes (t : Traffic) (es : List Event) : Nat := (Runs.collect step (succeeds i) t es).length

theorem successes_append (t : Traffic) (as bs : List Event) :
    successes i t (as ++ bs) = successes i t as + successes i (t.after as) bs := by
  rw [successes, Runs.collect_append, List.length_append]
  rfl

theorem successes_cons (t : Traffic) (e : Event) (es : List Event) :
    successes i t (e :: es) = (succeeds i t e).toList.length + successes i (t.step e) es := by
  rw [successes, Runs.collect_cons, List.length_append]
  rfl

variable {i}

theorem ok_step {t : Traffic} {e : Event} {k k' : KeyState} (here : t.key? i = some k)
    (there : (t.step e).key? i = some k') :
    k'.stats.ok = k.stats.ok + (succeeds i t e).toList.length ∧
      k'.monthlyCapOverride = k.monthlyCapOverride := by
  obtain ⟨_, there', turn⟩ := t.step_key here e
  obtain rfl := Option.some.inj (there.symm.trans there')
  exact ⟨turn.ok, turn.cap⟩

theorem ok_run {t : Traffic} {es : List Event} {k k' : KeyState} (here : t.key? i = some k)
    (there : (t.after es).key? i = some k') :
    k'.stats.ok = k.stats.ok + successes i t es ∧ k'.monthlyCapOverride = k.monthlyCapOverride := by
  induction es generalizing t k with
  | nil =>
    obtain rfl := Option.some.inj (there.symm.trans here)
    exact ⟨rfl, rfl⟩
  | cons e es ih =>
    obtain ⟨k₁, next, -⟩ := t.step_key here e
    have first := ok_step here next
    have rest := ih next there
    rw [successes_cons]
    exact ⟨by omega, rest.2.trans first.2⟩

end Successes

section Afresh

variable (i : Nat)

/-- The event records a success for key `i` that parks it because of the cap. -/
def CapParks (t : Traffic) (e : Event) : Prop :=
  ∃ k o, t.key? i = some k ∧ succeeds i t e = some o ∧ o.reportsExhausted = false ∧
    k.parkFor o ≠ none

/-- Event `back` re-enables key `i` from a monthly park, and `e` is a later success at which the cap
    parks it again, without Brave having reported the month used up. -/
structure Recapped (t : Traffic) (before : List Event) (back : Event) (during : List Event)
    (e : Event) : Prop where
  parked : ∃ k u, (t.after before).key? i = some k ∧ k.health = .exhausted u
  enabled : ∃ k, (t.after (before ++ [back])).key? i = some k ∧ k.health = .ok
  unreported : Runs.Along step (fun t e => ∀ o ∈ recorded i t e, o.reportsExhausted = false)
    (t.after (before ++ [back])) (during ++ [e])
  parks : CapParks i (t.after (before ++ back :: during)) e

/-- The cap of `c` counts afresh from each re-enabling on. -/
def CapCountsAfresh (c : Nat) (t : Traffic) (es : List Event) : Prop :=
  ∀ before back during e after, es = before ++ back :: (during ++ e :: after) →
    Recapped i t before back during e →
    c ≤ successes i (t.after (before ++ [back])) (during ++ [e])

variable {i}

theorem succeeds_eq_some {t : Traffic} {e : Event} {o : Outcome} :
    succeeds i t e = some o ↔ recorded i t e = some o ∧ o.isSuccess = true := by
  rw [succeeds, Option.filter_eq_some_iff]

theorem parkFor_success_iff {k : KeyState} {o : Outcome} {c : Nat}
    (cap : k.monthlyCapOverride = some c) (success : o.isSuccess = true)
    (unreported : o.reportsExhausted = false) : k.parkFor o ≠ none ↔ c ≤ k.stats.ok + 1 := by
  cases o with
  | transport err => cases success
  | response status rl bodySnippet =>
    have range : 200 ≤ status ∧ status ≤ 299 := of_decide_eq_true success
    have headers : rl.any (·.monthExhausted) = false := unreported
    rw [KeyState.parkFor_success _ _ _ range, KeyState.successPark, headers, cap]
    simp only [Option.any_some, Bool.false_eq_true, if_false, decide_eq_true_eq]
    split <;> simp_all

theorem below_cap {t : Traffic} {es : List Event} {k : KeyState} {c : Nat}
    (here : t.key? i = some k) (cap : k.monthlyCapOverride = some c)
    (unreported : Runs.Along step (fun t e => ∀ o ∈ recorded i t e, o.reportsExhausted = false) t es)
    (unparked : Runs.Along step (fun t e => ¬ CapParks i t e) t es) :
    successes i t es = 0 ∨ k.stats.ok + successes i t es < c := by
  induction es generalizing t k with
  | nil => exact .inl rfl
  | cons e es ih =>
    obtain ⟨k', next, -⟩ := t.step_key here e
    obtain ⟨ok, kept⟩ := ok_step here next
    have rest := ih next (kept.trans cap) unreported.2 unparked.2
    rw [successes_cons]
    cases success : succeeds i t e with
    | none =>
      rw [success] at ok
      simp only [Option.toList_none, List.length_nil] at ok ⊢
      omega
    | some o =>
      obtain ⟨recording, isSuccess⟩ := succeeds_eq_some.mp success
      have quiet := unreported.1 o recording
      have low : ¬ c ≤ k.stats.ok + 1 := fun reached =>
        unparked.1 ⟨k, o, here, success, quiet, (parkFor_success_iff cap isSuccess quiet).mpr reached⟩
      rw [success] at ok
      simp only [Option.toList_some, List.length_singleton] at ok ⊢
      omega

/-- The first success that parks again is the `max 1 (c - m)`-th, with `m` successes before. -/
theorem Recapped.first {t : Traffic} {before during : List Event} {back e : Event} {c m : Nat}
    (recapped : Recapped i t before back during e)
    (counted : ∀ k, (t.after (before ++ [back])).key? i = some k →
      k.monthlyCapOverride = some c ∧ k.stats.ok = m)
    (first : Runs.Along step (fun t e => ¬ CapParks i t e) (t.after (before ++ [back])) during) :
    successes i (t.after (before ++ [back])) (during ++ [e]) = max 1 (c - m) := by
  obtain ⟨k, here, -⟩ := recapped.enabled
  obtain ⟨cap, rfl⟩ := counted k here
  obtain ⟨k', o, there, success, quiet, parks⟩ := recapped.parks
  have regroup : before ++ back :: during = (before ++ [back]) ++ during := by simp
  rw [regroup, after_append] at there success
  obtain ⟨ok, kept⟩ := ok_run here there
  have reached := (parkFor_success_iff (kept.trans cap) (succeeds_eq_some.mp success).2 quiet).mp parks
  have low := below_cap here cap ((Runs.along_append ..).mp recapped.unreported).1 first
  have last : successes i ((t.after (before ++ [back])).after during) [e] = 1 := by
    rw [successes_cons, success]
    rfl
  rw [successes_append, last]
  omega

theorem Recapped.earlier {t : Traffic} {before d₁ d₂ : List Event} {back e₁ e : Event}
    (recapped : Recapped i t before back (d₁ ++ e₁ :: d₂) e)
    (parks : CapParks i (t.after (before ++ back :: d₁)) e₁) : Recapped i t before back d₁ e₁ := by
  refine ⟨recapped.parked, recapped.enabled, ?_, parks⟩
  have regroup : d₁ ++ e₁ :: d₂ ++ [e] = (d₁ ++ [e₁]) ++ (d₂ ++ [e]) := by simp
  have unreported := recapped.unreported
  rw [regroup] at unreported
  exact ((Runs.along_append ..).mp unreported).1

theorem Recapped.exists_first {t : Traffic} {before during : List Event} {back e : Event}
    (recapped : Recapped i t before back during e) :
    ∃ d₁ e₁ d₂, during ++ [e] = d₁ ++ e₁ :: d₂ ∧ Recapped i t before back d₁ e₁ ∧
      Runs.Along step (fun t e => ¬ CapParks i t e) (t.after (before ++ [back])) d₁ := by
  induction length : during.length using Nat.strongRecOn generalizing during e with
  | _ n ih =>
    by_cases first : Runs.Along step (fun t e => ¬ CapParks i t e) (t.after (before ++ [back])) during
    · exact ⟨during, e, [], rfl, recapped, first⟩
    · rw [Runs.along_iff_split] at first
      push Not at first
      obtain ⟨d₁, e₁, d₂, rfl, parks⟩ := first
      have reach : Runs.exec step (t.after (before ++ [back])) d₁ = t.after (before ++ back :: d₁) := by
        have joined := t.after_append (before ++ [back]) d₁
        rw [List.append_assoc] at joined
        exact joined.symm
      rw [reach] at parks
      have shorter : d₁.length < n := by
        rw [← length, List.length_append, List.length_cons]
        omega
      obtain ⟨d, e', d', split, found, rest⟩ := ih _ shorter (recapped.earlier parks) rfl
      have regroup : d₁ ++ e₁ :: d₂ ++ [e] = d ++ e' :: (d' ++ (d₂ ++ [e])) := by
        calc d₁ ++ e₁ :: d₂ ++ [e] = (d₁ ++ [e₁]) ++ (d₂ ++ [e]) := by simp
          _ = d ++ e' :: (d' ++ (d₂ ++ [e])) := by rw [split]; simp
      exact ⟨d, e', _, regroup, found, rest⟩

end Afresh

section New

variable (host : Host) (tokens : List String) (cfg : PoolConfig) {i c : Nat}

theorem new_counted (cap : cfg.monthlyLimits[i]? = some (some c)) {es : List Event} {k : KeyState}
    (here : ((new host tokens cfg).after es).key? i = some k) :
    k.monthlyCapOverride = some c ∧ k.stats.ok = successes i (new host tokens cfg) es := by
  obtain ⟨k₀, start⟩ := key_of_after _ _ here
  obtain ⟨ok, kept⟩ := ok_run start here
  obtain ⟨token, rfl⟩ := Pool.new_key host tokens cfg start
  rw [cap] at kept
  exact ⟨kept, ok.trans (Nat.zero_add _)⟩

/-- The cap counts afresh exactly where it parks again a key with a cap of 1, or one that had no
    success before it was re-enabled. -/
theorem cap_counts_afresh_iff (cap : cfg.monthlyLimits[i]? = some (some c)) (positive : 1 ≤ c)
    (es : List Event) :
    CapCountsAfresh i c (new host tokens cfg) es ↔
      ∀ before back during e after, es = before ++ back :: (during ++ e :: after) →
        Recapped i (new host tokens cfg) before back during e →
        c = 1 ∨ successes i (new host tokens cfg) (before ++ [back]) = 0 := by
  constructor
  · rintro afresh before back during e after rfl recapped
    obtain ⟨d₁, e₁, d₂, split, found, first⟩ := recapped.exists_first
    have count := found.first (fun k here => new_counted host tokens cfg cap here) first
    have regroup : during ++ e :: after = d₁ ++ e₁ :: (d₂ ++ after) := by
      calc during ++ e :: after = (during ++ [e]) ++ after := by simp
        _ = d₁ ++ e₁ :: (d₂ ++ after) := by rw [split]; simp
    have enough := afresh before back d₁ e₁ (d₂ ++ after) (by rw [regroup]) found
    omega
  · rintro fresh before back during e after rfl recapped
    obtain ⟨k, o, here, success, quiet, parks⟩ := recapped.parks
    obtain ⟨kept, ok⟩ := new_counted host tokens cfg cap here
    have reached := (parkFor_success_iff kept (succeeds_eq_some.mp success).2 quiet).mp parks
    have regroup : before ++ back :: during = (before ++ [back]) ++ during := by simp
    rw [regroup, successes_append] at ok
    have last : successes i ((new host tokens cfg).after (before ++ back :: during)) [e] = 1 := by
      rw [successes_cons, success]
      rfl
    rw [regroup, after_append] at last
    have fresh := fresh before back during e after rfl recapped
    rw [successes_append, last]
    omega

end New

theorem cap_of_one_counts_afresh :
    CapCountsAfresh 0 1 (ofTests ["key"] [some 1])
      [.acquire 0 [], .answer 1000000000 0 (.response 200 none none),
        .acquire 2592001000000000 [], .answer 2592002000000000 1 (.response 200 none none)] :=
  (cap_counts_afresh_iff _ _ _ rfl (by decide) _).mpr fun _ _ _ _ _ _ _ => .inl rfl

/-- A cap of two a month, and two successes; a month later the third parks the key again. -/
def secondMonth : List Event :=
  [.acquire 0 [], .answer 1000000000 0 (.response 200 none none),
    .acquire 2000000000 [], .answer 3000000000 1 (.response 200 none none),
    .acquire 2592003000000000 [], .answer 2592004000000000 2 (.response 200 none none)]

theorem cap_counts_last_month : ¬ CapCountsAfresh 0 2 (ofTests ["key"] [some 2]) secondMonth := by
  intro afresh
  have parked : ((((ofTests ["key"] [some 2]).after (secondMonth.take 4)).key? 0).get
      (by decide)).health = .exhausted 2592003000000000 := by decide
  have enabled : ((((ofTests ["key"] [some 2]).after (secondMonth.take 5)).key? 0).get
      (by decide)).health = .ok := by decide
  have parks : ((((ofTests ["key"] [some 2]).after (secondMonth.take 5)).key? 0).get
      (by decide)).parkFor (.response 200 none none) ≠ none := by decide
  have recapped : Recapped 0 (ofTests ["key"] [some 2]) (secondMonth.take 4)
      (.acquire 2592003000000000 []) [] (.answer 2592004000000000 2 (.response 200 none none)) :=
    ⟨⟨_, _, (Option.some_get _).symm, parked⟩, ⟨_, (Option.some_get _).symm, enabled⟩, by decide,
      ⟨_, _, (Option.some_get _).symm, by decide, rfl, parks⟩⟩
  have enough := afresh (secondMonth.take 4) (.acquire 2592003000000000 []) []
    (.answer 2592004000000000 2 (.response 200 none none)) [] rfl recapped
  exact absurd enough (by decide)

end Traffic

end BraveRotator
