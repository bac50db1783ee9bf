import BraveRotator.Key.Answers

namespace BraveRotator

/-- A sum that the snapshot takes over the keys, and what a key adds to it. -/
structure Tally where
  total : PoolSnapshot → Nat
  share : KeyState → Nat

def tallies : List Tally :=
  [{ total := fun out => out.rpsCapacity
     share := fun k => if k.health.isOk then max k.secLimit 1 else 0 },
    { total := fun out => out.slotsAvailableNow
      share := fun k => if k.health.isOk then k.freeSlots else 0 },
    { total := fun out => out.monthLimitTotal.getD 0
      share := fun k => if k.monthUnlimited then 0 else k.monthLimit.getD 0 },
    { total := fun out => out.monthRemainingTotal.getD 0
      share := fun k => if k.monthUnlimited then 0 else k.monthRemaining.getD 0 },
    { total := fun out => out.totals.requests, share := fun k => k.stats.requests },
    { total := fun out => out.totals.ok, share := fun k => k.stats.ok },
    { total := fun out => out.totals.upstream429, share := fun k => k.stats.upstream429 },
    { total := fun out => out.totals.client4xx, share := fun k => k.stats.client4xx },
    { total := fun out => out.totals.server5xx, share := fun k => k.stats.server5xx },
    { total := fun out => out.totals.transportErrors, share := fun k => k.stats.transportErrors }]

namespace PoolSnapshot

/-- No total has wrapped. -/
def Exact (out : PoolSnapshot) : Prop := ∀ t ∈ tallies, t.total out ≤ u64Max

def Adds (out : PoolSnapshot) (k : KeyState) : Prop :=
  ∀ t ∈ tallies, t.total out + t.share k ≤ u64Max

variable {host : Host} {out : PoolSnapshot} {k : KeyState}

theorem totalsOps_fit_iff (exact_ : out.Exact) :
    (∀ op ∈ out.totalsOps k, op.Fits host) ↔ out.Adds k := by
  unfold Exact at exact_
  simp only [tallies, List.forall_mem_cons] at exact_
  obtain ⟨rps, slots, limit, remaining, -⟩ := exact_
  have rates : (∀ op ∈ (if k.health.isOk then
        [Op.sum64 (out.rpsCapacity + max k.secLimit 1), Op.sum64 (out.slotsAvailableNow + k.freeSlots)]
      else []), op.Fits host) ↔
      out.rpsCapacity + (if k.health.isOk then max k.secLimit 1 else 0) ≤ u64Max ∧
        out.slotsAvailableNow + (if k.health.isOk then k.freeSlots else 0) ≤ u64Max := by
    cases k.health.isOk <;> simp [Op.Fits, rps, slots]
  have months : (∀ op ∈ (if k.monthUnlimited then []
      else
        (k.monthLimit.map fun m => Op.sum64 (out.monthLimitTotal.getD 0 + m)).toList ++
          (k.monthRemaining.map fun m => Op.sum64 (out.monthRemainingTotal.getD 0 + m)).toList),
      op.Fits host) ↔
      out.monthLimitTotal.getD 0 + (if k.monthUnlimited then 0 else k.monthLimit.getD 0) ≤ u64Max ∧
        out.monthRemainingTotal.getD 0 + (if k.monthUnlimited then 0 else k.monthRemaining.getD 0) ≤
          u64Max := by
    cases k.monthUnlimited with
    | true => simp [limit, remaining]
    | false => cases k.monthLimit <;> cases k.monthRemaining <;> simp [Op.Fits, limit, remaining]
  unfold Adds totalsOps
  rw [List.forall_mem_append, List.forall_mem_append, rates, months]
  simp [tallies, Op.Fits, and_assoc]

theorem addTotal_exact {total m : Option Nat} (fits : total.getD 0 + m.getD 0 ≤ u64Max) :
    (addTotal total m).getD 0 = total.getD 0 + m.getD 0 := by
  cases m with
  | none => rfl
  | some m => exact Nat.mod_eq_of_lt (Nat.lt_succ_of_le fits)

theorem visit_fields (host : Host) (out : PoolSnapshot) (k : KeyState) (now : Instant)
    (avail : Except Instant Unit) :
    ∃ keysHealthy monthUnlimitedKeys keys, out.visit host k now avail =
      { out with
        keysHealthy, monthUnlimitedKeys, keys
        rpsCapacity := out.rpsCapacity + (if k.health.isOk then max k.secLimit 1 else 0)
        slotsAvailableNow := out.slotsAvailableNow + (if k.health.isOk then k.freeSlots else 0)
        monthLimitTotal := addTotal out.monthLimitTotal (if k.monthUnlimited then none else k.monthLimit)
        monthRemainingTotal :=
          addTotal out.monthRemainingTotal (if k.monthUnlimited then none else k.monthRemaining)
        totals := out.totals.addTotals k.stats } := by
  unfold visit
  cases k.health.isOk with
  | true => cases k.monthUnlimited <;> exact ⟨_, _, _, rfl⟩
  | false => cases k.monthUnlimited <;> exact ⟨_, _, _, rfl⟩

theorem visit_total {t : Tally} (member : t ∈ tallies) (fits : t.total out + t.share k ≤ u64Max)
    (now : Instant) (avail : Except Instant Unit) :
    t.total (out.visit host k now avail) = t.total out + t.share k := by
  obtain ⟨_, _, _, visited⟩ := visit_fields host out k now avail
  rw [visited]
  simp only [tallies, List.mem_cons, List.not_mem_nil, or_false] at member
  rcases member with rfl | rfl | rfl | rfl | rfl | rfl | rfl | rfl | rfl | rfl
  · rfl
  · rfl
  · cases unlimited : k.monthUnlimited with
    | true => simp [unlimited, addTotal]
    | false =>
      simp only [unlimited, Bool.false_eq_true, if_false] at fits ⊢
      exact addTotal_exact fits
  · cases unlimited : k.monthUnlimited with
    | true => simp [unlimited, addTotal]
    | false =>
      simp only [unlimited, Bool.false_eq_true, if_false] at fits ⊢
      exact addTotal_exact fits
  all_goals rfl

theorem total_start {t : Tally} (member : t ∈ tallies) (now : String) (keysTotal : Nat) :
    t.total { now, keysTotal } = 0 := by
  simp only [tallies, List.mem_cons, List.not_mem_nil, or_false] at member
  rcases member with rfl | rfl | rfl | rfl | rfl | rfl | rfl | rfl | rfl | rfl
  all_goals rfl

theorem exact_visit (host : Host) (adds : out.Adds k) (now : Instant) (avail : Except Instant Unit) :
    (out.visit host k now avail).Exact := by
  intro t member
  rw [visit_total member (adds t member)]
  exact adds t member

end PoolSnapshot

namespace KeyState

def swept (k : KeyState) (now : Instant) (window : Duration) : KeyState :=
  ((k.refresh now).availability now window).1

/-- The instants that upstream has given for the key can be shown. -/
structure Shows (host : Host) (k : KeyState) : Prop where
  parked : ∀ u, k.health = .exhausted u → host.Prints u
  reset : ∀ u, k.monthResetAt = some u → host.Prints u

variable {host : Host} {window : Duration} {k : KeyState} {now : Instant}

theorem oldest_add_le (bounded : k.Bounded now) {oldest : Instant}
    (front : (k.pruneWindow now window).sends.head? = some oldest) : oldest + window ≤ now + window := by
  have member : oldest ∈ (k.pruneWindow now window).sends := List.mem_of_mem_head? front
  exact Nat.add_le_add_right (bounded.sends oldest ((List.dropWhile_suffix _).mem member)) window

theorem availabilityOps_fit (calendar : host.Calendar window now) (bounded : k.Bounded now) :
    ∀ op ∈ k.availabilityOps now window, op.Fits host := by
  intro op member
  unfold availabilityOps at member
  split at member
  · cases member
  · cases member
  · split at member
    · cases member
    · dsimp only at member
      split at member
      · rename_i oldest front
        split at member
        · obtain rfl := List.mem_singleton.mp member
          exact add_of_le calendar.window ((oldest_add_le bounded front).trans (Nat.le_add_right _ _))
        · cases member
      · cases member

theorem wait_prints (calendar : host.Calendar window now) (bounded : k.Bounded now)
    (ok : k.health = .ok) {u : Instant} (refused : (k.availability now window).2 = .error u) :
    host.Prints u := by
  rcases availability_error refused with parked | ⟨-, held, -⟩ | ⟨-, -, oldest, front, rfl, -⟩
  · rw [ok] at parked
    cases parked
  · exact prints_of_le calendar.cooldown (bounded.held_le held)
  · exact prints_of_le calendar.window (oldest_add_le bounded front)

/-- Of the three instants in a key's snapshot, two come from upstream. -/
theorem toSnapshotOps_fit_iff (calendar : host.Calendar window now) (bounded : k.Bounded now) :
    (∀ op ∈ (k.availability now window).1.toSnapshotOps now (k.availability now window).2,
      op.Fits host) ↔ (k.availability now window).1.Shows host := by
  have swept := bounded.availability window
  have health := k.availability_health now window
  have wait := fun ok u refused => wait_prints (u := u) calendar bounded ok refused
  generalize (k.availability now window).1 = k' at swept health
  generalize (k.availability now window).2 = avail at wait
  rw [← health] at wait
  have split : (∀ op ∈ k'.toSnapshotOps now avail, op.Fits host) ↔
      (∀ u, (k'.status now avail).2.2 = some u → host.Prints u) ∧
        (∀ u, k'.disabledSince = some u → host.Prints u) ∧
          ∀ u, k'.monthResetAt = some u → host.Prints u := by
    unfold toSnapshotOps
    rw [List.forall_mem_map, List.forall_mem_append, List.forall_mem_append, and_assoc]
    simp only [Option.mem_toList]
    exact Iff.rfl
  rw [split]
  constructor
  · rintro ⟨parked, -, reset⟩
    refine ⟨?_, reset⟩
    intro u exhausted
    refine parked u ?_
    simp only [status, exhausted]
  · intro shows
    refine ⟨?_, ?_, shows.reset⟩
    · intro u shown
      unfold status at shown
      cases state : k'.health with
      | disabled u' reason =>
        rw [state] at shown
        cases shown
        exact prints_of_le calendar.cooldown (swept.disabled u reason state)
      | exhausted u' =>
        rw [state] at shown
        cases shown
        exact shows.parked u state
      | ok =>
        rw [state] at shown
        dsimp only at shown
        split at shown
        · exact prints_of_le calendar.cooldown (swept.held_le shown)
        · split at shown
          · cases shown
            exact wait state u rfl
          · cases shown
    · intro t since
      exact prints_of_le calendar.cooldown ((swept.disabledSince t since).trans (Nat.le_add_right _ _))

end KeyState

section Loop

variable {host : Host} {window : Duration} {now : Instant}

/-- The loop completes when each key can be shown and the totals fit. -/
theorem snapshotFromOps_fit_iff (calendar : host.Calendar window now) {out : PoolSnapshot}
    {ks : List KeyState} (bounded : ∀ k ∈ ks, k.Bounded now) (exact_ : out.Exact) :
    (∀ op ∈ snapshotFromOps host now window out ks, op.Fits host) ↔
      (∀ k ∈ ks, (k.swept now window).Shows host) ∧
        ∀ t ∈ tallies, t.total out + (ks.map fun k => t.share (k.swept now window)).sum ≤ u64Max := by
  induction ks generalizing out with
  | nil =>
    refine iff_of_true (by simp [snapshotFromOps]) ⟨by simp, ?_⟩
    exact fun t member => exact_ t member
  | cons k ks ih =>
    have refreshed := (bounded k List.mem_cons_self).refresh
    have waits := KeyState.availabilityOps_fit calendar refreshed
    have shows : _ ↔ (k.swept now window).Shows host :=
      KeyState.toSnapshotOps_fit_iff calendar refreshed
    have totals : (∀ op ∈ out.totalsOps (k.swept now window), op.Fits host) ↔
        out.Adds (k.swept now window) := PoolSnapshot.totalsOps_fit_iff exact_
    have rest (adds : out.Adds (k.swept now window)) :=
      ih (fun k' member => bounded k' (List.mem_cons_of_mem k member))
        (PoolSnapshot.exact_visit host adds now ((k.refresh now).availability now window).2)
    unfold snapshotFromOps
    dsimp only
    rw [List.forall_mem_append, List.forall_mem_append, List.forall_mem_append, List.forall_mem_cons]
    constructor
    · rintro ⟨⟨⟨-, added⟩, shown⟩, later⟩
      have adds := totals.mp added
      obtain ⟨allShown, sums⟩ := (rest adds).mp later
      refine ⟨⟨shows.mp shown, allShown⟩, ?_⟩
      intro t member
      have sum := sums t member
      rw [PoolSnapshot.visit_total member (adds t member), Nat.add_assoc] at sum
      exact sum
    · rintro ⟨⟨shown, allShown⟩, sums⟩
      have adds : out.Adds (k.swept now window) := fun t member =>
        (Nat.add_le_add_left (Nat.le_add_right _ _) _).trans (sums t member)
      refine ⟨⟨⟨waits, totals.mpr adds⟩, shows.mpr shown⟩, (rest adds).mpr ⟨allShown, ?_⟩⟩
      intro t member
      rw [PoolSnapshot.visit_total member (adds t member), Nat.add_assoc]
      exact sums t member

end Loop

end BraveRotator
