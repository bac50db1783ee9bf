import BraveRotator.Key.Stats
import BraveRotator.Pool.Ranges
import BraveRotator.Pool.Rotation
import BraveRotator.Pool.Slots
import BraveRotator.Pool.Window
import Mathlib.Algebra.BigOperators.Group.Finset.Basic
import Mathlib.Algebra.BigOperators.Group.Finset.Piecewise

namespace BraveRotator

section Keys

variable {window : Duration} {i leases : Nat} {k k' : KeyState} {c : Call} {leased : Option Nat}
  {log : List Outcome}

theorem KeyState.Tidied.stats {now : Instant} (tidied : k.Tidied now window k') :
    k'.stats = k.stats := by
  rcases tidied with rfl | rfl
  · exact refresh_stats ..
  · rw [availability_stats, refresh_stats]

theorem KeyState.granted_stats (k : KeyState) (now : Instant) (window : Duration) :
    (((k.refresh now).availability now window).1.grant now).stats =
      { k.stats with requests := k.stats.requests + 1 } := by
  unfold grant
  rw [availability_stats, refresh_stats]

theorem KeyState.Change.tells {made : Option Nat} (change : k.Change window i c made k')
    (tells : k.stats.Tells leases log) :
    k'.stats.Tells (leases + if made = some i then 1 else 0) (log ++ (c.recorded i).toList) := by
  cases change with
  | digested now o =>
    have recorded : (Call.record now i o).recorded i = some o := if_pos rfl
    rw [recorded]
    exact tells.noted (k.digest_noted now o)
  | bystander now j o other =>
    have recorded : (Call.record now j o).recorded i = none := if_neg other
    rw [recorded, if_neg nofun]
    simpa using tells
  | granted now exclude free =>
    rw [granted_stats, if_pos rfl]
    simpa [Call.recorded] using tells.granted
  | tidied _ _ _ passive other tidied =>
    have recorded : c.recorded i = none := by
      cases c with
      | record now j o => exact absurd rfl (passive now j o)
      | tryAcquire now exclude => rfl
      | snapshot now => rfl
    rw [recorded, if_neg other, tidied.stats]
    simpa using tells

theorem KeyState.Change.fits {made : Option Nat} (change : k.Change window i c made k')
    (fits : k.stats.Fits)
    (grants : ∀ now exclude, c = .tryAcquire now exclude → made = some i → k.stats.requests < u64Max)
    (records : ∀ now o, c = .record now i o → o.kind ≠ .other →
      k.stats.count o.kind + 1 ≤ u64Max) : k'.stats.Fits := by
  cases change with
  | digested now o => exact fits.noted (k.digest_noted now o) (records now o rfl)
  | bystander now j o other => exact fits
  | granted now exclude free =>
    rw [granted_stats]
    exact fits.granted (grants now exclude rfl rfl)
  | tidied _ _ _ passive other tidied =>
    rw [tidied.stats]
    exact fits

end Keys

/-- The outcome that a call records for one of the first `n` keys. -/
def Call.outcome? (n : Nat) : Call → Option Outcome
  | .record _ idx outcome => if idx < n then some outcome else none
  | _ => none

/-- Counting by the first `n` numbers, and then all of them. -/
theorem sum_countP {α : Type*} (n : Nat) {p : Nat → α → Bool} {q : α → Bool}
    (parts : ∀ a, (∑ i ∈ Finset.range n, if p i a then 1 else 0) = if q a then 1 else 0) (l : List α) :
    (∑ i ∈ Finset.range n, l.countP (p i)) = l.countP q := by
  induction l with
  | nil => simp
  | cons a l ih => simp only [List.countP_cons, Finset.sum_add_distrib, ih, parts]

theorem countP_filterMap_any {α β : Type*} (f : α → Option β) (p : β → Bool) (l : List α) :
    (l.filterMap f).countP p = l.countP fun a => (f a).any p := by
  induction l with
  | nil => rfl
  | cons a l ih =>
    rw [List.filterMap_cons, List.countP_cons]
    cases f a with
    | none => simpa using ih
    | some b => simpa [List.countP_cons] using ih

theorem filterMap_toList {α β : Type*} (f : α → Option β) (o : Option α) :
    o.toList.filterMap f = (o.bind f).toList := by
  cases o with
  | none => rfl
  | some a => cases found : f a <;> simp [found]

namespace Stats

theorem count_addTotals (s t : Stats) (kind : OutcomeKind) :
    (s.addTotals t).count kind = s.count kind + t.count kind := by
  cases kind <;> rfl

end Stats

theorem PoolSnapshot.visit_totals (host : Host) (out : PoolSnapshot) (k : KeyState) (now : Instant)
    (avail : Except Instant Unit) :
    (out.visit host k now avail).totals = out.totals.addTotals k.stats := by
  unfold visit
  dsimp only
  split <;> split <;> try split
  all_goals rfl

theorem snapshotFrom_totals (host : Host) (now : Instant) (window : Duration) (out : PoolSnapshot)
    (ks : List KeyState) :
    (snapshotFrom host now window out ks).2.totals =
      (ks.map KeyState.stats).foldl Stats.addTotals out.totals := by
  induction ks generalizing out with
  | nil => rfl
  | cons k ks ih =>
    simp only [snapshotFrom, ih, PoolSnapshot.visit_totals, KeyState.availability_stats,
      KeyState.refresh_stats, List.map_cons, List.foldl_cons]

theorem addTotals_fits {host : Host} {out : PoolSnapshot} {k : KeyState}
    (all : ∀ op ∈ out.totalsOps k, op.Fits host) : (out.totals.addTotals k.stats).Fits := by
  have sums := (List.forall_mem_append.mp all).2
  simp only [List.forall_mem_cons] at sums
  obtain ⟨requests, ok, upstream429, client4xx, server5xx, transportErrors, -⟩ := sums
  constructor
  · exact requests
  · intro kind
    cases kind with
    | ok => exact ok
    | tooMany => exact upstream429
    | client => exact client4xx
    | server => exact server5xx
    | transport => exact transportErrors
    | other => exact Nat.zero_le _

theorem snapshotFrom_totals_fit {host : Host} {now : Instant} {window : Duration} {out : PoolSnapshot}
    {ks : List KeyState} (fits : out.totals.Fits)
    (all : ∀ op ∈ snapshotFromOps host now window out ks, op.Fits host) :
    (snapshotFrom host now window out ks).2.totals.Fits := by
  induction ks generalizing out with
  | nil => exact fits
  | cons k ks ih =>
    obtain ⟨here, further⟩ := List.forall_mem_append.mp all
    apply ih _ further
    rw [PoolSnapshot.visit_totals]
    exact addTotals_fits (List.forall_mem_append.mp (List.forall_mem_append.mp here).1).2

theorem foldl_addTotals (stats : List Stats) (out : Stats) :
    (stats.foldl Stats.addTotals out).requests = out.requests + (stats.map Stats.requests).sum ∧
      ∀ kind, (stats.foldl Stats.addTotals out).count kind =
        out.count kind + (stats.map (·.count kind)).sum := by
  induction stats generalizing out with
  | nil => exact ⟨rfl, fun _ => rfl⟩
  | cons s stats ih =>
    obtain ⟨requests, counts⟩ := ih (out.addTotals s)
    refine ⟨?_, fun kind => ?_⟩
    · rw [List.foldl_cons, requests, List.map_cons, List.sum_cons, ← Nat.add_assoc]
      rfl
    · rw [List.foldl_cons, counts, Stats.count_addTotals, List.map_cons, List.sum_cons, Nat.add_assoc]

namespace Pool

theorem grants_concat (p : Pool) (i : Nat) (cs : List Call) (c : Call) :
    (p.grants i (cs ++ [c])).length =
      (p.grants i cs).length + if (p.after cs).leased c = some i then 1 else 0 := by
  have last : timesOf i (Runs.collect step (fun p c => (p.leased c).map (·, c.time)) (p.after cs) [c]) =
      if (p.after cs).leased c = some i then [c.time] else [] := by
    rw [Runs.collect_cons, Runs.collect_nil, List.append_nil]
    exact timesOf_leased ..
  rw [grants, leases, Runs.collect_append, timesOf_append]
  show (timesOf i _ ++ timesOf i (Runs.collect step _ (p.after cs) [c])).length = _
  rw [last, List.length_append]
  split <;> rfl

theorem requests_room {p : Pool} {now : Instant} {exclude : List Nat} {i : Nat} {k : KeyState}
    (completes : p.Completes (.tryAcquire now exclude)) (turn : p.turn now exclude = some i)
    (here : p.keys[i]? = some k) : k.stats.requests < u64Max := by
  have fits : ∀ op ∈ p.tryAcquireOps now exclude, op.Fits p.host := completes
  unfold tryAcquireOps at fits
  rw [List.forall_mem_append, choose_eq] at fits
  obtain ⟨scored, best, rfl⟩ := Option.map_eq_some_iff.mp turn
  unfold freeScores at best
  rw [best] at fits
  exact ((grantOps_fit_iff turn).mp fits.2).1 scored.1 k turn here

/-- A call that completes leaves the counters of the keys in range. -/
theorem step_fits {p : Pool} {c : Call} (fits : ∀ k ∈ p.keys, k.stats.Fits)
    (completes : p.Completes c) : ∀ k ∈ (p.step c).keys, k.stats.Fits := by
  intro k' member
  obtain ⟨i, there⟩ := List.mem_iff_getElem?.mp member
  obtain ⟨k, here, change⟩ := step_key_inv p there
  apply change.fits (fits k (List.mem_of_getElem? here))
  · intro now exclude same leased
    subst same
    exact requests_room completes (turn_of_leased leased) here
  · intro now o same counted
    subst same
    have all : ∀ op ∈ p.recordOps now i o, op.Fits p.host := completes
    simp only [recordOps, here] at all
    exact all _ (k.sum64_mem_digestOps now counted)

theorem run_fits {p : Pool} {cs : List Call} (fits : ∀ k ∈ p.keys, k.stats.Fits)
    (completes : Runs.Along step Completes p cs) : ∀ k ∈ (p.after cs).keys, k.stats.Fits :=
  Runs.exec_invariant (I := fun p : Pool => ∀ k ∈ p.keys, k.stats.Fits) (fun _ _ => step_fits) fits
    completes

theorem snapshot_fits {p : Pool} {now : Instant} (completes : p.Completes (.snapshot now)) :
    (p.snapshot now).2.totals.Fits := by
  have all : ∀ op ∈ p.snapshotOps now, op.Fits p.host := completes
  exact snapshotFrom_totals_fit Stats.fits_new (List.forall_mem_cons.mp all).2

section New

variable (host : Host) (tokens : List String) (cfg : PoolConfig)

theorem new_fits : ∀ k ∈ (new host tokens cfg).keys, k.stats.Fits := by
  intro k member
  obtain ⟨i, here⟩ := List.mem_iff_getElem?.mp member
  obtain ⟨token, rfl⟩ := new_key host tokens cfg here
  exact Stats.fits_new

theorem stats_tell (cs : List Call) (i : Nat) (k : KeyState)
    (here : ((new host tokens cfg).after cs).keys[i]? = some k) :
    k.stats.Tells ((new host tokens cfg).grants i cs).length (cs.filterMap (Call.recorded i)) := by
  induction cs using List.reverseRecOn generalizing k with
  | nil =>
    obtain ⟨token, rfl⟩ := new_key host tokens cfg here
    exact Stats.tells_new
  | append_singleton cs c ih =>
    rw [after_concat] at here
    obtain ⟨k₀, before, change⟩ := step_key_inv _ here
    have tells := change.tells (ih k₀ before)
    rw [grants_concat, List.filterMap_append]
    cases recorded : c.recorded i with
    | none => simpa [recorded] using tells
    | some o => simpa [recorded] using tells

theorem after_length (p : Pool) (cs : List Call) : (p.after cs).keys.length = p.keys.length :=
  Runs.exec_invariant' (I := fun q : Pool => q.keys.length = p.keys.length)
    (fun q c same => (q.step_length c).trans same) cs rfl

theorem leases_inside (p : Pool) (cs : List Call) : ∀ lease ∈ p.leases cs, lease.1 < p.keys.length := by
  induction cs using List.reverseRecOn with
  | nil => exact nofun
  | append_singleton cs c ih =>
    intro lease member
    rw [leases, Runs.collect_append] at member
    rcases List.mem_append.mp member with before | last
    · exact ih lease before
    · rw [Runs.collect_cons, Runs.collect_nil, List.append_nil, Option.mem_toList] at last
      obtain ⟨i, leased, rfl⟩ := Option.map_eq_some_iff.mp last
      obtain ⟨-, -, k, -, here, -⟩ := leased_cases _ leased
      rw [← p.after_length cs]
      exact (List.getElem?_eq_some_iff.mp here).1

theorem sum_keys {ks : List KeyState} {g : KeyState → Nat} {f : Nat → Nat}
    (same : ∀ i k, ks[i]? = some k → g k = f i) :
    (ks.map g).sum = ∑ i ∈ Finset.range ks.length, f i := by
  induction ks generalizing f with
  | nil => rfl
  | cons k ks ih =>
    rw [List.map_cons, List.sum_cons, List.length_cons, Finset.sum_range_succ', Nat.add_comm]
    exact congrArg₂ _ (ih fun i k' here => same (i + 1) k' here) (same 0 k rfl)

theorem snapshot_totals (p : Pool) (now : Instant) :
    (p.snapshot now).2.totals.requests = (p.keys.map fun k => k.stats.requests).sum ∧
      ∀ kind, (p.snapshot now).2.totals.count kind = (p.keys.map fun k => k.stats.count kind).sum := by
  have totals : (p.snapshot now).2.totals = (p.keys.map KeyState.stats).foldl Stats.addTotals {} :=
    snapshotFrom_totals ..
  obtain ⟨requests, counts⟩ := foldl_addTotals (p.keys.map KeyState.stats) {}
  rw [totals]
  refine ⟨?_, fun kind => ?_⟩
  · rw [requests, List.map_map]
    exact Nat.zero_add _
  · have none : ({} : Stats).count kind = 0 := by cases kind <;> rfl
    rw [counts kind, List.map_map, none]
    exact Nat.zero_add _

theorem totals_tell (cs : List Call) (now : Instant) :
    (((new host tokens cfg).after cs).snapshot now).2.totals.requests =
        ((new host tokens cfg).turns cs).length ∧
      ∀ kind, kind ≠ .other →
        (((new host tokens cfg).after cs).snapshot now).2.totals.count kind =
          (cs.filterMap (Call.outcome? tokens.length)).countP (·.kind = kind) := by
  have length : ((new host tokens cfg).after cs).keys.length = (new host tokens cfg).keys.length :=
    after_length ..
  have size : (new host tokens cfg).keys.length = tokens.length := by simp [new]
  obtain ⟨requests, counts⟩ := snapshot_totals ((new host tokens cfg).after cs) now
  have tells := stats_tell host tokens cfg cs
  refine ⟨?_, fun kind counted => ?_⟩
  · have each : ∀ i, ((new host tokens cfg).grants i cs).length =
        ((new host tokens cfg).leases cs).countP (·.1 = i) := by
      intro i
      rw [grants, timesOf, List.length_map, List.countP_eq_length_filter]
    rw [requests, sum_keys fun i k here => (tells i k here).requests.trans (each i), length,
      sum_countP _ (q := fun lease => decide (lease.1 < (new host tokens cfg).keys.length))]
    · rw [turns_eq, List.length_map, List.countP_eq_length]
      exact fun lease member => decide_eq_true (leases_inside _ cs lease member)
    · intro lease
      simp only [decide_eq_true_eq, Finset.sum_ite_eq, Finset.mem_range]
  · have each : ∀ i, (cs.filterMap (Call.recorded i)).countP (·.kind = kind) =
        cs.countP fun c => (c.recorded i).any (·.kind = kind) :=
      fun i => countP_filterMap_any _ _ cs
    rw [counts kind, sum_keys fun i k here => ((tells i k here).counts kind counted).trans (each i),
      length, size, countP_filterMap_any]
    refine sum_countP _ (fun c => ?_) cs
    cases c with
    | record now idx o =>
      simp only [Call.recorded, Call.outcome?]
      by_cases inside : idx < tokens.length <;> by_cases same : o.kind = kind <;>
        simp [inside, same, apply_ite]
    | tryAcquire now exclude => simp [Call.recorded, Call.outcome?]
    | snapshot now => simp [Call.recorded, Call.outcome?]

/-- The statistics of each key, and the totals on the status page, are what the history of the pool
    says: the leases of the run, and the outcomes recorded in it for a key that exists. As long as the
    calls complete, none of these counters wraps. -/
theorem stats_by_history (cs : List Call) (now : Instant) :
    (∀ (i : Nat) (k : KeyState), ((new host tokens cfg).after cs).keys[i]? = some k →
      k.stats.Tells ((new host tokens cfg).grants i cs).length (cs.filterMap (Call.recorded i))) ∧
    (((new host tokens cfg).after cs).snapshot now).2.totals.requests =
      ((new host tokens cfg).turns cs).length ∧
    (∀ kind, kind ≠ .other →
      (((new host tokens cfg).after cs).snapshot now).2.totals.count kind =
        (cs.filterMap (Call.outcome? tokens.length)).countP (·.kind = kind)) ∧
    (Runs.Along step Completes (new host tokens cfg) cs →
      (∀ k ∈ ((new host tokens cfg).after cs).keys, k.stats.Fits) ∧
        (((new host tokens cfg).after cs).Completes (.snapshot now) →
          (((new host tokens cfg).after cs).snapshot now).2.totals.Fits)) := by
  obtain ⟨requests, counts⟩ := totals_tell host tokens cfg cs now
  refine ⟨fun i k here => stats_tell host tokens cfg cs i k here, requests, counts, ?_⟩
  intro completes
  exact ⟨run_fits (new_fits host tokens cfg) completes, snapshot_fits⟩

end New

end Pool

end BraveRotator
