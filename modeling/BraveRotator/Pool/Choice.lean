import BraveRotator.Lib.Selection
import BraveRotator.Pool.Rotation

namespace BraveRotator

namespace KeyState

/-- What is known to be left of the key's month at `now`: nothing for a plan without a cap, and nothing
    any more once the park for the month is over. -/
def quota? (k : KeyState) (now : Instant) : Option Nat :=
  match k.monthlyCapOverride with
  | some cap => some (cap - k.stats.ok)
  | none =>
    if k.monthLimit = some 0 then none
    else
      match k.health with
      | .exhausted u => if u ≤ now then none else k.monthRemaining
      | _ => k.monthRemaining

/-- Where key `i` stands among the keys to choose from, with `value` for what is left of its month. -/
def rank {α : Type*} (value : Option Nat → α) (now : Instant) (i : Nat) (k : KeyState) :
    (WithBot Instant ×ₗ αᵒᵈ) ×ₗ Nat :=
  toLex (toLex ((k.lastUsed : WithBot Instant), OrderDual.toDual (value (k.quota? now))), i)

/-- Nothing has become of the key but what `now` puts an end to: its park, its hold, sends that are
    a window old. -/
structure CleanedUp (now : Instant) (window : Duration) (k k' : KeyState) : Prop where
  fields : k' = { k with
    health := k'.health, monthRemaining := k'.monthRemaining, monthResetAt := k'.monthResetAt,
    holdUntil := k'.holdUntil, sends := k'.sends }
  health : k'.health = if k.Healthy now then .ok else k.health
  month : (k'.monthRemaining = k.monthRemaining ∧ k'.monthResetAt = k.monthResetAt) ∨
    ∃ u, k.health = .exhausted u ∧ u ≤ now ∧ k'.monthRemaining = none ∧ k'.monthResetAt = none
  hold : k'.holdUntil = k.holdUntil ∨ (¬ k.Held now ∧ k'.holdUntil = none)
  sends : ∃ old, k.sends = old ++ k'.sends ∧ ∀ t ∈ old, t + window ≤ now

section CleanUp

variable {k k' : KeyState} {now : Instant} {window : Duration}

theorem refresh_month (k : KeyState) (now : Instant) :
    ((k.refresh now).monthRemaining = k.monthRemaining ∧
        (k.refresh now).monthResetAt = k.monthResetAt) ∨
      ∃ u, k.health = .exhausted u ∧ u ≤ now ∧ (k.refresh now).monthRemaining = none ∧
        (k.refresh now).monthResetAt = none := by
  unfold refresh
  cases health : k.health with
  | ok => exact .inl ⟨rfl, rfl⟩
  | disabled u reason =>
    left
    dsimp only
    split <;> exact ⟨rfl, rfl⟩
  | exhausted u =>
    dsimp only
    split
    · rename_i past
      exact .inr ⟨u, rfl, past, rfl, rfl⟩
    · exact .inl ⟨rfl, rfl⟩

theorem refresh_cleanedUp (k : KeyState) (now : Instant) (window : Duration) :
    k.CleanedUp now window (k.refresh now) := by
  refine ⟨?_, k.refresh_health now, k.refresh_month now, .inl (k.refresh_holdUntil now), [], ?_, ?_⟩
  · obtain ⟨_, _, _, same⟩ := k.refresh_fields now
    rw [same]
  · rw [refresh_sends, List.nil_append]
  · intro t member
    cases member

theorem pruned_split (k : KeyState) (positive : 0 < window) :
    ∃ old, k.sends = old ++ (k.pruneWindow now window).sends ∧ ∀ t ∈ old, t + window ≤ now := by
  refine ⟨k.sends.takeWhile fun t => decide (t + window ≤ now), ?_, ?_⟩
  · rw [pruneWindow_sends positive, List.takeWhile_append_dropWhile]
  · intro t member
    simpa using List.mem_takeWhile_imp member

theorem swept_cleanedUp (k : KeyState) (positive : 0 < window) :
    k.CleanedUp now window ((k.refresh now).availability now window).1 := by
  have refreshed := k.refresh_cleanedUp now window
  obtain ⟨_, _, fields⟩ := (k.refresh now).availability_fields now window
  have month : ((k.refresh now).availability now window).1.monthRemaining =
        (k.refresh now).monthRemaining ∧
      ((k.refresh now).availability now window).1.monthResetAt = (k.refresh now).monthResetAt := by
    rw [fields]
    exact ⟨rfl, rfl⟩
  refine ⟨?_, (availability_health ..).trans refreshed.health, ?_, ?_, ?_⟩
  · rw [fields]
    obtain ⟨_, _, _, same⟩ := k.refresh_fields now
    rw [same]
  · rw [month.1, month.2]
    exact refreshed.month
  · rcases (k.refresh now).availability_cases now window with ⟨_, _, same⟩ | ⟨_, _, _, _, same⟩ |
      ⟨_, free, same⟩
    · rw [same]
      exact refreshed.hold
    · rw [same]
      exact refreshed.hold
    · rw [same]
      refine .inr ⟨?_, rfl⟩
      unfold Held at free ⊢
      rwa [refresh_holdUntil] at free
  · rcases (k.refresh now).availability_sends now window with same | same
    · rw [same]
      exact refreshed.sends
    · rw [same, ← k.refresh_sends now]
      exact (k.refresh now).pruned_split positive

theorem Tidied.cleanedUp (tidied : k.Tidied now window k') (positive : 0 < window) :
    k.CleanedUp now window k' := by
  rcases tidied with rfl | rfl
  · exact k.refresh_cleanedUp now window
  · exact k.swept_cleanedUp positive

end CleanUp

theorem refresh_ranking (k : KeyState) (now : Instant) :
    (k.refresh now).monthRemainingForRanking = (k.quota? now).getD u64Max := by
  have monthLimit : (k.refresh now).monthLimit = k.monthLimit := by
    obtain ⟨_, _, _, same⟩ := k.refresh_fields now
    rw [same]
  unfold monthRemainingForRanking effectiveMonthUsed monthUnlimited quota?
  rw [refresh_monthlyCapOverride, refresh_stats, monthLimit]
  cases cap : k.monthlyCapOverride with
  | some cap => rfl
  | none =>
    by_cases uncapped : k.monthLimit = some 0
    · simp [uncapped]
    · simp only [Option.isSome_none, Bool.false_eq_true, if_false, uncapped, decide_false]
      congr 1
      unfold refresh
      cases health : k.health with
      | ok => rfl
      | disabled u reason =>
        dsimp only
        split <;> rfl
      | exhausted u =>
        dsimp only
        split <;> rfl

theorem refresh_score (k : KeyState) (now : Instant) :
    (k.refresh now).score =
      toLex ((k.lastUsed : WithBot Instant), OrderDual.toDual ((k.quota? now).getD u64Max)) := by
  unfold score
  rw [refresh_lastUsed, refresh_ranking]
  rfl

theorem rank_le_iff {k k' : KeyState} {now : Instant} {i j : Nat} :
    rank (·.getD u64Max) now i k ≤ rank (·.getD u64Max) now j k' ↔
      (k.refresh now).score < (k'.refresh now).score ∨
        (k.refresh now).score = (k'.refresh now).score ∧ i ≤ j := by
  unfold rank
  rw [Prod.Lex.toLex_le_toLex, refresh_score, refresh_score]
  exact Iff.rfl

end KeyState

theorem pairwise_visited {α : Type*} (exclude : List Nat) (skipExcluded : Bool) (i : Nat)
    (as : List α) :
    (visited exclude skipExcluded i as).Pairwise fun a b => a.1 < b.1 := by
  apply List.Pairwise.filter
  rw [List.pairwise_map]
  have ordered := List.pairwise_lt_range' (s := i) (n := as.length)
  have indices : (as.zipIdx i).map Prod.snd = List.range' i as.length := List.zipIdx_map_snd i as
  rw [← indices, List.pairwise_map] at ordered
  exact ordered

namespace Pool

/-- The keys to choose from: those that are not excluded if one of them is healthy, and else all. -/
def Candidate (p : Pool) (now : Instant) (exclude : List Nat) (i : Nat) (k : KeyState) : Prop :=
  p.keys[i]? = some k ∧
    ((∃ j k', p.keys[j]? = some k' ∧ j ∉ exclude ∧ k'.Healthy now) → i ∉ exclude)

/-- What `try_acquire` is to do, for keys ranked with `value` for what is left of their months. -/
structure Selects {α : Type*} [LinearOrder α] (value : Option Nat → α) (p : Pool) (now : Instant)
    (exclude : List Nat) (result : Pool × Except Next Lease) : Prop where
  leases : (∃ lease, result.2 = .ok lease) ↔
    ∃ i k, p.Candidate now exclude i k ∧ k.Eligible now p.window
  least : ∀ lease, result.2 = .ok lease ↔
    ∃ i k, lease = k.lease i ∧ p.Candidate now exclude i k ∧ k.Eligible now p.window ∧
      ∀ j k', p.Candidate now exclude j k' → k'.Eligible now p.window →
        k.rank value now i ≤ k'.rank value now j
  waits : (∃ u, result.2 = .error (.at u)) ↔
    (∀ i k, p.Candidate now exclude i k → ¬ k.Eligible now p.window) ∧
      ∃ i k, p.Candidate now exclude i k ∧ k.Healthy now
  unavailable : (∃ earliest summary, result.2 = .error (.unavailable earliest summary)) ↔
    ∀ k ∈ p.keys, ¬ k.Healthy now
  pool : result.1.cfg = p.cfg ∧ result.1.host = p.host ∧ result.1.keys.length = p.keys.length
  keys : ∀ (i : Nat) (k : KeyState), p.keys[i]? = some k →
    ∃ k', k.CleanedUp now p.window k' ∧ result.1.keys[i]? = some
      (if result.2.toOption.map Lease.idx = some i then k'.grant now else k')

section Selects

variable {p : Pool} {now : Instant} {exclude : List Nat}

theorem candidate_iff {i : Nat} {k : KeyState} :
    p.Candidate now exclude i k ↔
      p.keys[i]? = some k ∧ (p.spares now exclude = true → i ∉ exclude) := by
  unfold Candidate
  rw [spares_iff]

theorem Candidate.mem {i : Nat} {k : KeyState} (candidate : p.Candidate now exclude i k) :
    (i, k.refresh now) ∈ p.candidates now exclude :=
  (p.mem_candidates now exclude).mpr
    ⟨⟨k, candidate.1, rfl⟩, (candidate_iff.mp candidate).2⟩

theorem pairwise_freeScores : (p.freeScores now exclude).Pairwise fun a b => a.1 < b.1 := by
  have visits := pairwise_visited exclude (p.spares now exclude) 0
    (p.keys.map (KeyState.refresh · now))
  refine List.Pairwise.filterMap _ ?_ visits
  intro a b lt a' here b' there
  rw [(free?_eq_some.mp here).2, (free?_eq_some.mp there).2]
  exact lt

/-- The choice is the least of the free candidates in rank. -/
theorem rank_of_best {i : Nat} {k : KeyState}
    (best : (p.freeScores now exclude).argmin (·.2) = some (i, (k.refresh now).score)) {j : Nat}
    {k' : KeyState} (candidate : p.Candidate now exclude j k')
    (free : ((k'.refresh now).availability now p.window).2 = .ok ()) :
    k.rank (·.getD u64Max) now i ≤ k'.rank (·.getD u64Max) now j := by
  have scored : (j, (k'.refresh now).score) ∈ p.freeScores now exclude :=
    (p.mem_freeScores now exclude).mpr ⟨_, candidate.mem, free, rfl⟩
  have least : (k.refresh now).score ≤ (k'.refresh now).score :=
    List.le_of_mem_argmin (f := fun scored : Nat × Score => scored.2) scored (Option.mem_def.mpr best)
  rw [KeyState.rank_le_iff]
  rcases lt_or_eq_of_le least with less | same
  · exact .inl less
  · exact .inr ⟨same, Selection.key_le_of_mem_argmin pairwise_freeScores
      (Option.mem_def.mpr best) scored same.ge⟩

theorem rank_injective {α : Type*} {value : Option Nat → α} {i j : Nat} {k k' : KeyState}
    (same : k.rank value now i = k'.rank value now j) : i = j :=
  congrArg (fun r : (WithBot Instant ×ₗ αᵒᵈ) ×ₗ Nat => (ofLex r).2) same

theorem free_eligible (orderly : ∀ k ∈ p.keys, k.Orderly) {i : Nat} {k : KeyState}
    (here : p.keys[i]? = some k) :
    ((k.refresh now).availability now p.window).2 = .ok () ↔ k.Eligible now p.window :=
  (orderly k (List.mem_of_getElem? here)).free_iff p.window_pos

theorem noneEligible (orderly : ∀ k ∈ p.keys, k.Orderly) (noneFree : p.freeScores now exclude = [])
    (i : Nat) (k : KeyState) (candidate : p.Candidate now exclude i k) :
    ¬ k.Eligible now p.window := by
  intro eligible
  have scored : (i, (k.refresh now).score) ∈ p.freeScores now exclude :=
    (p.mem_freeScores now exclude).mpr
      ⟨_, candidate.mem, (free_eligible orderly candidate.1).mpr eligible, rfl⟩
  rw [noneFree] at scored
  cases scored

theorem settled_keys (now : Instant) (exclude : List Nat) {i : Nat} {k : KeyState} (here : p.keys[i]? = some k) :
    k.CleanedUp now p.window (p.settle now exclude i k) ∧
      (p.keys.mapIdx (p.settle now exclude))[i]? = some (p.settle now exclude i k) :=
  ⟨(p.settle_tidied now exclude i k).cleanedUp p.window_pos, p.getElem?_settled now exclude here⟩

theorem refused_leases {α : Type*} [LinearOrder α] (value : Option Nat → α) (refusal : Next)
    (none : ∀ i k, p.Candidate now exclude i k → ¬ k.Eligible now p.window) :
    ((∃ lease : Lease, (.error refusal : Except Next Lease) = .ok lease) ↔
        ∃ i k, p.Candidate now exclude i k ∧ k.Eligible now p.window) ∧
      ∀ lease : Lease, (.error refusal : Except Next Lease) = .ok lease ↔
        ∃ i k, lease = k.lease i ∧ p.Candidate now exclude i k ∧ k.Eligible now p.window ∧
          ∀ j k', p.Candidate now exclude j k' → k'.Eligible now p.window →
            k.rank value now i ≤ k'.rank value now j := by
  constructor
  · refine iff_of_false ?_ ?_
    · rintro ⟨lease, success⟩
      cases success
    · rintro ⟨i, k, candidate, eligible⟩
      exact none i k candidate eligible
  · intro lease
    refine iff_of_false ?_ ?_
    · intro success
      cases success
    · rintro ⟨i, k, -, candidate, eligible, -⟩
      exact none i k candidate eligible

/-- The two passes with their accumulator do what is asked for, where the logs are in order. -/
theorem tryAcquire_selects (orderly : ∀ k ∈ p.keys, k.Orderly) :
    Selects (·.getD u64Max) p now exclude (p.tryAcquire now exclude) := by
  have cases := p.tryAcquire_cases now exclude
  generalize p.tryAcquire now exclude = result at cases
  cases cases with
  | leased i k here fresh free best =>
    have candidate : p.Candidate now exclude i k := candidate_iff.mpr ⟨here, fresh⟩
    have eligible := (free_eligible orderly here).mp free
    have least : ∀ j k', p.Candidate now exclude j k' → k'.Eligible now p.window →
        k.rank (·.getD u64Max) now i ≤ k'.rank (·.getD u64Max) now j :=
      fun j k' other ready => rank_of_best best other ((free_eligible orderly other.1).mpr ready)
    constructor
    · exact iff_of_true ⟨_, rfl⟩ ⟨i, k, candidate, eligible⟩
    · intro lease
      constructor
      · intro same
        cases same
        exact ⟨i, k, rfl, candidate, eligible, least⟩
      · rintro ⟨j, k', rfl, other, ready, before⟩
        have same := rank_injective (le_antisymm (least j k' other ready) (before i k candidate eligible))
        subst same
        obtain rfl : k = k' := Option.some.inj (here.symm.trans other.1)
        rfl
    · refine iff_of_false ?_ ?_
      · rintro ⟨u, refused⟩
        cases refused
      · exact fun none => none.1 i k candidate eligible
    · refine iff_of_false ?_ ?_
      · rintro ⟨earliest, summary, refused⟩
        cases refused
      · exact fun sick => sick k (List.mem_of_getElem? here) eligible.healthy
    · exact ⟨rfl, rfl, by rw [List.length_set, List.length_mapIdx]⟩
    · intro j k' there
      obtain ⟨cleaned, settled⟩ := settled_keys now exclude there
      refine ⟨_, cleaned, ?_⟩
      by_cases same : i = j
      · subst same
        obtain rfl : k = k' := Option.some.inj (here.symm.trans there)
        have own : (Except.toOption (ε := Next) (.ok (k.lease i))).map Lease.idx = some i := rfl
        rw [if_pos own]
        exact List.getElem?_set_self (List.getElem?_eq_some_iff.mp settled).1
      · have other : (Except.toOption (ε := Next) (.ok (k.lease i))).map Lease.idx ≠ some j :=
          fun leased => same (Option.some.inj leased)
        rw [if_neg other]
        exact (List.getElem?_set_ne same).trans settled
  | waits u noneFree least healthy =>
    have none := noneEligible orderly noneFree
    obtain ⟨i, k, member, ok⟩ := healthy
    obtain ⟨⟨k₀, here, rfl⟩, fresh⟩ := (p.mem_candidates now exclude).mp member
    have healthy := (k₀.refresh_ok_iff now).mp ok
    have candidate : p.Candidate now exclude i k₀ := candidate_iff.mpr ⟨here, fresh⟩
    have leases := refused_leases (·.getD u64Max) (.at u) none
    refine ⟨leases.1, leases.2, ?_, ?_, ?_, ?_⟩
    · exact iff_of_true ⟨u, rfl⟩ ⟨none, i, k₀, candidate, healthy⟩
    · refine iff_of_false ?_ ?_
      · rintro ⟨earliest, summary, refused⟩
        cases refused
      · exact fun sick => sick k₀ (List.mem_of_getElem? here) healthy
    · exact ⟨rfl, rfl, List.length_mapIdx⟩
    · intro j k there
      obtain ⟨cleaned, settled⟩ := settled_keys now exclude there
      exact ⟨_, cleaned, settled⟩
  | unavailable summary sick =>
    have parked : ∀ k ∈ p.keys, ¬ k.Healthy now := by
      intro k member
      obtain ⟨i, here⟩ := List.mem_iff_getElem?.mp member
      exact p.parked_of_sick now exclude sick here
    have parked' : ∀ i k, p.Candidate now exclude i k → ¬ k.Healthy now :=
      fun i k candidate => parked k (List.mem_of_getElem? candidate.1)
    have leases := refused_leases (·.getD u64Max)
      (.unavailable ((p.candidates now exclude).filterMap (blocked? now p.window)).min? summary)
      fun i k candidate eligible => parked' i k candidate eligible.healthy
    refine ⟨leases.1, leases.2, ?_, ?_, ?_, ?_⟩
    · refine iff_of_false ?_ ?_
      · rintro ⟨u, refused⟩
        cases refused
      · rintro ⟨-, i, k, candidate, healthy⟩
        exact parked' i k candidate healthy
    · exact iff_of_true ⟨_, _, rfl⟩ parked
    · exact ⟨rfl, rfl, List.length_mapIdx⟩
    · intro j k there
      obtain ⟨cleaned, settled⟩ := settled_keys now exclude there
      exact ⟨_, cleaned, settled⟩

end Selects

section New

variable (host : Host) (tokens : List String) (cfg : PoolConfig)

/-- In every state that a run can lead to, and at any instant, `try_acquire` selects by the rules, where
    a month of which nothing is known, or that has no cap, counts as the largest number there is; the
    sends that it goes by are then those of the key's leases in the run. -/
theorem selects_by_rules (cs : List Call) (now : Instant) (exclude : List Nat)
    (ordered : InOrder ((new host tokens cfg).leases cs)) :
    Selects (·.getD u64Max) ((new host tokens cfg).after cs) now exclude
        (((new host tokens cfg).after cs).tryAcquire now exclude) ∧
      (Runs.Ordered Call.time 0 cs → Runs.clock Call.time 0 cs ≤ now →
        ∀ i k, ((new host tokens cfg).after cs).keys[i]? = some k →
          SlidingWindow.recent (new host tokens cfg).window now k.sends =
            SlidingWindow.recent (new host tokens cfg).window now
              ((new host tokens cfg).grants i cs)) := by
  constructor
  · apply tryAcquire_selects
    intro k member
    obtain ⟨i, here⟩ := List.mem_iff_getElem?.mp member
    exact (remembers_run host tokens cfg ordered i k here).toOrderly
  · intro clock le i k here
    exact ((windowed_run host tokens cfg clock i k here).advance le).tracks.recent_live.symm

end New

/-- Leases of both keys at the same instant; then the first reports the largest number for its month,
    and the second nothing. -/
def hugeMonth : List Call :=
  [.tryAcquire 0 [], .tryAcquire 0 [],
    .record 1 0 (.response 200
      (some { limit := { month := some u64Max }, remaining := { month := some u64Max } }) none)]

theorem selects_after_hugeMonth :
    InOrder ((ofTests ["first", "second"] []).leases hugeMonth) ∧
      Selects (·.getD u64Max) ((ofTests ["first", "second"] []).after hugeMonth) 2000000000 [7]
        (((ofTests ["first", "second"] []).after hugeMonth).tryAcquire 2000000000 [7]) := by
  have ordered : InOrder ((ofTests ["first", "second"] []).leases hugeMonth) := by
    unfold InOrder
    decide
  exact ⟨ordered, (selects_by_rules _ _ _ hugeMonth 2000000000 [7] ordered).1⟩

/-- Were a month of which nothing is known more than any number, the second key would have to be
    selected. -/
theorem known_month_ties :
    InOrder ((ofTests ["first", "second"] []).leases hugeMonth) ∧
      ¬ Selects (fun quota => quota.elim (⊤ : WithTop Nat) (↑))
        ((ofTests ["first", "second"] []).after hugeMonth) 2000000000 []
        (((ofTests ["first", "second"] []).after hugeMonth).tryAcquire 2000000000 []) := by
  constructor
  · unfold InOrder
    decide
  · intro right
    have first : (((ofTests ["first", "second"] []).after hugeMonth).tryAcquire 2000000000 []).2 =
        .ok { idx := 0, token := "first", label := "k1:..irst" } := by decide
    obtain ⟨i, k, same, candidate, -, least⟩ := (right.least _).mp first
    obtain rfl : 0 = i := congrArg Lease.idx same
    have keys : ∃ k second, ((ofTests ["first", "second"] []).after hugeMonth).keys = [k, second] ∧
        k.quota? 2000000000 = some u64Max ∧ k.lastUsed = some 0 ∧
        second.quota? 2000000000 = none ∧ second.lastUsed = some 0 ∧
        second.Eligible 2000000000 ((ofTests ["first", "second"] []).after hugeMonth).window :=
      ⟨_, _, rfl, by decide, by decide, by decide, by decide, by decide⟩
    obtain ⟨k', second, both, known, used, unknown, used', eligible⟩ := keys
    have here : ((ofTests ["first", "second"] []).after hugeMonth).keys[0]? = some k' := by
      rw [both]
      rfl
    have there : ((ofTests ["first", "second"] []).after hugeMonth).keys[1]? = some second := by
      rw [both]
      rfl
    obtain rfl : k' = k := Option.some.inj (here.symm.trans candidate.1)
    have before := least 1 second ⟨there, fun _ => List.not_mem_nil⟩ eligible
    unfold KeyState.rank at before
    rw [known, used, unknown, used'] at before
    exact absurd before (by decide)

end Pool

end BraveRotator
