import BraveRotator.Lib.Parallel
import BraveRotator.Pool.Step

namespace BraveRotator

open Parallel

/-- An outcome, when it is recorded and for which key. -/
structure Arrival where
  now : Instant
  idx : Nat
  outcome : Outcome

def Arrival.call (a : Arrival) : Call := .record a.now a.idx a.outcome

namespace Pool

def arrive (p : Pool) (a : Arrival) : Pool := p.step a.call

def verdict (p : Pool) (a : Arrival) : Option Verdict := some (p.record a.now a.idx a.outcome).2

/-- The verdicts on the outcomes for one key, in order. -/
def verdicts (i : Nat) (p : Pool) (as : List Arrival) : List Verdict :=
  Runs.collect arrive (shownTo verdict Arrival.idx i) p as

section Local

variable (p : Pool)

theorem after_arrivals (as : List Arrival) :
    p.after (as.map Arrival.call) = Runs.exec arrive p as := by
  induction as generalizing p with
  | nil => rfl
  | cons a as ih => exact ih (p.arrive a)

theorem arrive_keys (a : Arrival) (i : Nat) : (p.arrive a).keys[i]? =
    if i = a.idx then (p.keys[i]?).map fun k => (k.digest a.now a.outcome).1 else p.keys[i]? := by
  have keys := p.record_keys a.now a.idx a.outcome
  have same : (p.arrive a).keys = (p.record a.now a.idx a.outcome).1.keys := rfl
  rw [same, keys, List.getElem?_modify]
  by_cases own : i = a.idx
  · simp only [if_pos own, if_pos own.symm]
    rfl
  · simp only [if_neg own, if_neg (Ne.symm own)]
    exact id_map _

theorem verdict_eq (a : Arrival) : p.verdict a =
    some ((p.keys[a.idx]?).elim .returnToClient fun k => (k.digest a.now a.outcome).2) := by
  unfold verdict record
  cases p.keys[a.idx]? <;> rfl

/-- An outcome concerns its key alone. -/
theorem arrivals_local :
    Local arrive verdict Arrival.idx (fun i p => p.keys[i]?)
      (fun o a => o.map fun k => (k.digest a.now a.outcome).1)
      (fun o a => some (o.elim .returnToClient fun k => (k.digest a.now a.outcome).2)) where
  own p a := (p.arrive_keys a a.idx).trans (if_pos rfl)
  others p a i other := (p.arrive_keys a i).trans (if_neg other)
  told := verdict_eq

end Local

/-- It does not matter in which order outcomes for different keys are recorded: as long as those for
    each key stay in order, the pool is the same afterwards and says the same of each. -/
theorem arrivals_commute (p : Pool) (as bs : List Arrival)
    (same : ∀ i, as.filter (·.idx = i) = bs.filter (·.idx = i)) :
    p.after (as.map Arrival.call) = p.after (bs.map Arrival.call) ∧
      ∀ i, p.verdicts i as = p.verdicts i bs := by
  have each := fun i => arrivals_local.congr (same i) p
  have fixed : ∀ cs, (p.after cs).cfg = p.cfg ∧ (p.after cs).host = p.host := by
    intro cs
    apply Runs.exec_invariant' (I := fun q : Pool => q.cfg = p.cfg ∧ q.host = p.host) _ cs ⟨rfl, rfl⟩
    intro q c before
    obtain ⟨cfg, host⟩ := q.step_fixed c
    exact ⟨cfg.trans before.1, host.trans before.2⟩
  refine ⟨?_, fun i => (each i).2⟩
  have keys : (p.after (as.map Arrival.call)).keys = (p.after (bs.map Arrival.call)).keys := by
    apply List.ext_getElem?
    intro i
    rw [after_arrivals, after_arrivals]
    exact (each i).1
  obtain ⟨cfg, host⟩ := fixed (as.map Arrival.call)
  obtain ⟨cfg', host'⟩ := fixed (bs.map Arrival.call)
  generalize p.after (as.map Arrival.call) = q at keys cfg host
  generalize p.after (bs.map Arrival.call) = q' at keys cfg' host'
  cases q
  cases q'
  rw [mk.injEq]
  exact ⟨keys, cfg.trans cfg'.symm, host.trans host'.symm⟩

/-- A rejection and a success, for two keys. -/
def rejection : Arrival := { now := 1, idx := 0, outcome := .response 401 none none }

def success : Arrival := { now := 2, idx := 1, outcome := .response 200 none none }

theorem rejection_and_success :
    (ofTests ["one", "two"] []).after [rejection.call, success.call] =
      (ofTests ["one", "two"] []).after [success.call, rejection.call] := by
  have apart : ∀ i, [rejection, success].filter (·.idx = i) = [success, rejection].filter (·.idx = i) := by
    intro i
    have one : rejection.idx = 0 := rfl
    have two : success.idx = 1 := rfl
    by_cases first : i = 0
    · subst first
      simp [one, two]
    · simp [List.filter_cons, one, two, Ne.symm first]
  exact (arrivals_commute _ [rejection, success] [success, rejection] apart).1

end Pool

end BraveRotator
