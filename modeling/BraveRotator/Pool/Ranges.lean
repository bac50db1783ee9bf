import BraveRotator.Pool.Step
import BraveRotator.Pool.Totals

namespace BraveRotator

theorem KeyState.Bounded.change {window : Duration} {i : Nat} {k k' : KeyState} {c : Call}
    {leased : Option Nat} (bounded : k.Bounded c.time) (change : k.Change window i c leased k') :
    k'.Bounded c.time := by
  cases change with
  | digested now o => exact bounded.digest o
  | bystander now j o other => exact bounded
  | granted now exclude free => exact (bounded.refresh.availability window).grant
  | tidied _ _ _ passive other tidied => exact bounded.tidied tidied

namespace Pool

def Bounded (now : Instant) (p : Pool) : Prop := ∀ k ∈ p.keys, k.Bounded now

theorem new_bounded (host : Host) (tokens : List String) (cfg : PoolConfig) (now : Instant) :
    (new host tokens cfg).Bounded now := by
  intro k member
  obtain ⟨i, here⟩ := List.mem_iff_getElem?.mp member
  obtain ⟨token, rfl⟩ := new_key host tokens cfg here
  exact KeyState.new_bounded ..

variable {p : Pool} {now : Instant}

theorem Bounded.step {c : Call} (bounded : p.Bounded now) (le : now ≤ c.time) :
    (p.step c).Bounded c.time := by
  intro k' member
  obtain ⟨i, there⟩ := List.mem_iff_getElem?.mp member
  obtain ⟨k, here, change⟩ := p.step_key_inv there
  exact ((bounded k (List.mem_of_getElem? here)).later le).change change

section Choosing

variable {host : Host} {window : Duration}

theorem pickFromOps_fit (calendar : host.Calendar window now) (exclude : List Nat) (skip : Bool)
    {ks : List KeyState} (bounded : ∀ k ∈ ks, k.Bounded now) (i : Nat) :
    ∀ op ∈ pickFromOps now window exclude skip i ks, op.Fits host := by
  induction ks generalizing i with
  | nil =>
    intro op member
    cases member
  | cons k ks ih =>
    have rest := ih (fun k' member => bounded k' (List.mem_cons_of_mem k member)) (i + 1)
    unfold pickFromOps
    split
    · exact rest
    · rw [List.forall_mem_append]
      exact ⟨KeyState.availabilityOps_fit calendar (bounded k List.mem_cons_self), rest⟩

theorem Bounded.pick (bounded : p.Bounded now) (exclude : List Nat) (skip : Bool) :
    (p.pick now exclude skip).1.Bounded now := by
  intro k' member
  rw [pick_eq] at member
  obtain ⟨i, inside, rfl⟩ := List.mem_mapIdx.mp member
  have before := bounded _ (List.getElem_mem inside)
  split
  · exact before
  · exact before.availability p.window

theorem chooseOps_fit (calendar : p.host.Calendar p.window now) (bounded : p.Bounded now)
    (exclude : List Nat) : ∀ op ∈ p.chooseOps now exclude, op.Fits p.host := by
  let q : Pool := { p with keys := p.keys.map (KeyState.refresh · now) }
  have refreshed : q.Bounded now := by
    intro k member
    obtain ⟨k₀, old, rfl⟩ := List.mem_map.mp member
    exact (bounded k₀ old).refresh
  have first := pickFromOps_fit (i := 0) calendar exclude true refreshed
  have second := pickFromOps_fit (i := 0) calendar exclude false (refreshed.pick exclude true)
  unfold chooseOps
  dsimp only
  split
  · rw [List.forall_mem_append]
    exact ⟨first, second⟩
  · exact first

end Choosing

/-- The key whose turn it is: the first with the least score of those that may be leased. -/
def turn (p : Pool) (now : Instant) (exclude : List Nat) : Option Nat :=
  ((p.freeScores now exclude).argmin (·.2)).map Prod.fst

theorem turn_of_leased {p : Pool} {now : Instant} {exclude : List Nat} {i : Nat}
    (leased : p.leased (.tryAcquire now exclude) = some i) : p.turn now exclude = some i := by
  obtain ⟨k, -, -, -, best⟩ := p.best_of_leased leased
  unfold turn
  rw [best]
  rfl

/-- What the pool has to bring along for a call. -/
def Serves (p : Pool) : Call → Prop
  | .tryAcquire now exclude =>
    (∀ i k, p.turn now exclude = some i → p.keys[i]? = some k → k.stats.requests < u64Max) ∧
      ((∀ k ∈ p.keys, ¬ k.Healthy now) →
        ∀ k ∈ p.keys, ∀ u, k.health = .exhausted u → p.host.Prints u)
  | .record now idx outcome => ∀ k, p.keys[idx]? = some k → k.Takes p.host now outcome
  | .snapshot now =>
    (∀ k ∈ p.keys, (k.swept now p.window).Shows p.host) ∧
      ∀ t ∈ tallies, (p.keys.map fun k => t.share (k.swept now p.window)).sum ≤ u64Max

theorem settle_of_parked {exclude : List Nat} (parked : ∀ k ∈ p.keys, ¬ k.Healthy now) :
    p.keys.mapIdx (p.settle now exclude) = p.keys := by
  apply settled_eq_self
  intro i k here
  have refreshed := k.refresh_of_parked now (parked k (List.mem_of_getElem? here))
  have waits : (k.availability now p.window).1 = k := by
    obtain ⟨u, until_, -⟩ : ∃ u, k.health.parkedUntil? = some u ∧ ¬ u ≤ now := by
      simpa [KeyState.Healthy] using parked k (List.mem_of_getElem? here)
    rw [k.availability_of_parked now p.window until_]
  rw [settle, refreshed, waits, ite_self]

section Calls

variable (calendar : p.host.Calendar p.window now) (bounded : p.Bounded now)

include calendar bounded in
theorem healthLines_fit_iff :
    (∀ op ∈ p.keys.flatMap KeyState.healthLineOps, op.Fits p.host) ↔
      ∀ k ∈ p.keys, ∀ u, k.health = .exhausted u → p.host.Prints u := by
  have line : ∀ k ∈ p.keys, (∀ op ∈ k.healthLineOps, op.Fits p.host) ↔
      ∀ u, k.health = .exhausted u → p.host.Prints u := by
    intro k member
    have soon := (bounded k member).disabled
    unfold KeyState.healthLineOps
    cases state : k.health with
    | ok => simp
    | exhausted u => simp [Op.Fits]
    | disabled u reason =>
      have prints : p.host.Prints u := prints_of_le calendar.cooldown (soon u reason state)
      simp [Op.Fits, prints]
  constructor
  · intro fits k member
    exact (line k member).mp fun op inside => fits op (List.mem_flatMap.mpr ⟨k, member, inside⟩)
  · intro prints op member
    obtain ⟨k, old, inside⟩ := List.mem_flatMap.mp member
    exact (line k old).mpr (prints k old) op inside

theorem grantOps_fit_iff {exclude : List Nat} {i : Nat} (turn : p.turn now exclude = some i) :
    (∀ op ∈ ((p.keys.mapIdx (p.settle now exclude))[i]?.map fun k =>
      Op.sum64 (k.stats.requests + 1)).toList, op.Fits p.host) ↔
      p.Serves (.tryAcquire now exclude) := by
  obtain ⟨⟨j, score⟩, best, rfl⟩ := Option.map_eq_some_iff.mp turn
  have member := List.argmin_mem (Option.mem_def.mpr best)
  obtain ⟨k, candidate, free, rfl⟩ := (p.mem_freeScores now exclude).mp member
  obtain ⟨⟨k₀, here, rfl⟩, -⟩ := (p.mem_candidates now exclude).mp candidate
  have healthy := (k₀.refresh_ok_iff now).mp (KeyState.availability_ok_iff.mp free).1
  have stats : (p.settle now exclude j k₀).stats = k₀.stats := by
    rcases p.settle_tidied now exclude j k₀ with same | same
    · rw [same, KeyState.refresh_stats]
    · rw [same, KeyState.availability_stats, KeyState.refresh_stats]
  simp only [List.getElem?_mapIdx, here, Option.map_some, Option.toList_some,
    List.forall_mem_singleton, stats, KeyState.sum64_fits_iff]
  constructor
  · intro low
    refine ⟨?_, fun sick => absurd healthy (sick k₀ (List.mem_of_getElem? here))⟩
    intro i k same there
    obtain rfl := Option.some.inj (turn.symm.trans same)
    obtain rfl := Option.some.inj (here.symm.trans there)
    exact low
  · intro serves
    exact serves.1 j k₀ turn here

include calendar bounded in
theorem refusalOps_fit_iff {exclude : List Nat} (turn : p.turn now exclude = none) :
    (∀ op ∈ (if (p.candidates now exclude).any (·.2.health.isOk) then []
      else (p.keys.mapIdx (p.settle now exclude)).flatMap KeyState.healthLineOps), op.Fits p.host) ↔
      p.Serves (.tryAcquire now exclude) := by
  have counted : ∀ i k, p.turn now exclude = some i → p.keys[i]? = some k →
      k.stats.requests < u64Max := by
    intro i k same
    cases turn.symm.trans same
  by_cases healthy : ((p.candidates now exclude).any (·.2.health.isOk)) = true
  · obtain ⟨⟨i, k⟩, member, ok⟩ := List.any_eq_true.mp healthy
    obtain ⟨⟨k₀, here, rfl⟩, -⟩ := (p.mem_candidates now exclude).mp member
    have live := (k₀.refresh_ok_iff now).mp (Health.isOk_iff.mp ok)
    rw [if_pos healthy]
    exact iff_of_true (by simp)
      ⟨counted, fun sick => absurd live (sick k₀ (List.mem_of_getElem? here))⟩
  · have sick : ∀ i k, (i, k) ∈ p.candidates now exclude → k.health ≠ .ok := fun i k member ok =>
      healthy (List.any_eq_true.mpr ⟨(i, k), member, Health.isOk_iff.mpr ok⟩)
    have parked : ∀ k ∈ p.keys, ¬ k.Healthy now := by
      intro k member
      obtain ⟨i, here⟩ := List.mem_iff_getElem?.mp member
      exact p.parked_of_sick now exclude sick here
    rw [if_neg healthy, settle_of_parked parked, healthLines_fit_iff calendar bounded]
    exact ⟨fun prints => ⟨counted, fun _ => prints⟩, fun serves => serves.2 parked⟩

include calendar bounded in
theorem tryAcquireOps_fit_iff (exclude : List Nat) :
    (∀ op ∈ p.tryAcquireOps now exclude, op.Fits p.host) ↔ p.Serves (.tryAcquire now exclude) := by
  have chosen := chooseOps_fit calendar bounded exclude
  unfold tryAcquireOps
  rw [List.forall_mem_append, choose_eq]
  dsimp only
  rw [and_iff_right chosen]
  cases best : ((p.candidates now exclude).filterMap (free? now p.window)).argmin (·.2) with
  | some scored => exact grantOps_fit_iff (congrArg (Option.map Prod.fst) best)
  | none => exact refusalOps_fit_iff calendar bounded (congrArg (Option.map Prod.fst) best)

include calendar bounded in
theorem snapshotOps_fit_iff :
    (∀ op ∈ p.snapshotOps now, op.Fits p.host) ↔ p.Serves (.snapshot now) := by
  have prints : (Op.format now).Fits p.host :=
    prints_of_le calendar.cooldown (Nat.le_add_right now authBackoffMax)
  have zero : ∀ t ∈ tallies,
      t.total { now := p.host.fmtInstant now, keysTotal := p.keys.length } = 0 :=
    fun t member => PoolSnapshot.total_start member _ _
  have exact_ : PoolSnapshot.Exact { now := p.host.fmtInstant now, keysTotal := p.keys.length } := by
    intro t member
    rw [zero t member]
    exact Nat.zero_le _
  unfold snapshotOps
  rw [List.forall_mem_cons, and_iff_right prints, snapshotFromOps_fit_iff calendar bounded exact_]
  refine and_congr_right fun _ => forall₂_congr fun t member => ?_
  rw [zero t member, Nat.zero_add]

include calendar bounded in
/-- A call completes exactly when the pool can serve it. -/
theorem completes_iff {c : Call} (time : c.time = now) : p.Completes c ↔ p.Serves c := by
  subst time
  cases c with
  | tryAcquire now exclude => exact tryAcquireOps_fit_iff calendar bounded exclude
  | snapshot now => exact snapshotOps_fit_iff calendar bounded
  | record now idx outcome =>
    unfold Completes Serves ops recordOps
    cases here : p.keys[idx]? with
    | none => simp [here]
    | some k =>
      have low := (bounded k (List.mem_of_getElem? here)).failures
      simp only [here, Option.some.injEq, forall_eq']
      exact KeyState.digestOps_fit_iff calendar low outcome

end Calls

section Runs

variable (host : Host) (tokens : List String) (cfg : PoolConfig)

/-- In a run of a new pool all calls complete exactly when the pool can serve each of them. -/
theorem run_completes_iff {cs : List Call} (ordered : Runs.Ordered Call.time 0 cs)
    (calendar : ∀ c ∈ cs, host.Calendar (new host tokens cfg).window c.time) :
    Runs.Along step Completes (new host tokens cfg) cs ↔
      Runs.Along step Serves (new host tokens cfg) cs := by
  let InRange (now : Instant) (p : Pool) : Prop :=
    p.Bounded now ∧ p.host = host ∧ p.window = (new host tokens cfg).window
  have keep : ∀ now p c, InRange now p → now ≤ Call.time c → InRange c.time (p.step c) := by
    intro now p c inRange le
    obtain ⟨bounded, sameHost, sameWindow⟩ := inRange
    exact ⟨bounded.step le, (p.step_host c).trans sameHost, (p.step_window c).trans sameWindow⟩
  have same : ∀ now p c, InRange now p → now ≤ Call.time c →
      host.Calendar (new host tokens cfg).window c.time → (p.Completes c ↔ p.Serves c) := by
    intro now p c inRange le inTime
    obtain ⟨bounded, sameHost, sameWindow⟩ := inRange
    rw [← sameWindow, ← sameHost] at inTime
    have here : p.Bounded c.time := fun k member => (bounded k member).later le
    exact completes_iff inTime here rfl
  have start : InRange 0 (new host tokens cfg) := ⟨new_bounded host tokens cfg 0, rfl, rfl⟩
  exact Runs.along_congr keep same start ordered calendar

end Runs

theorem run_completes_of_month_used_up :
    Runs.Along step Serves (ofTests ["key"] [])
      [.tryAcquire 0 [],
        .record 1000000000 0 (.response 200
          (some { remaining := { month := some 0 }, reset := { month := some 2592000 } }) none),
        .tryAcquire 2000000000 [], .snapshot 3000000000] :=
  (run_completes_iff _ _ _ (by decide) (by decide)).mp (by decide)

/-- A reset that is out of reach for the clock, as the only answer. -/
def endlessMonth : List Call :=
  [.tryAcquire 0 [],
    .record 1000000000 0
      (.response 200 (some { reset := { month := some 18446744073709551615 } }) none)]

/-- A reset after the year 10000, and somebody looks at the pool. -/
def distantMonth : List Call :=
  [.tryAcquire 0 [],
    .record 1000000000 0 (.response 200 (some { reset := { month := some 1099511627776 } }) none),
    .snapshot 2000000000]

/-- Two plans of half the range of a `u64`. -/
def hugePlans : List Call :=
  [.tryAcquire 0 [], .tryAcquire 0 [],
    .record 1000000000 0
      (.response 200 (some { limit := { month := some 9223372036854775808 } }) none),
    .record 1000000000 1
      (.response 200 (some { limit := { month := some 9223372036854775808 } }) none),
    .snapshot 2000000000]

theorem answers_not_survived :
    ¬ Runs.Along step Completes (ofTests ["key"] []) endlessMonth ∧
      ¬ Runs.Along step Completes (ofTests ["key"] []) distantMonth ∧
        ¬ Runs.Along step Completes (ofTests ["one", "two"] []) hugePlans := by
  decide

end Pool

end BraveRotator
