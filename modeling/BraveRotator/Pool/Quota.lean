import BraveRotator.Key.Quota
import BraveRotator.Pool.Step

namespace BraveRotator

/-- What a call has to find in key `i` for the key to be parked after it if it is spent. -/
def KeyState.MindsQuota (k : KeyState) (i : Nat) : Call → Prop
  | .record _ idx outcome => idx = i → k.TakesQuota outcome
  | .tryAcquire now _ => k.WakesWithQuota now
  | .snapshot now => k.WakesWithQuota now

theorem KeyState.Change.parkedWhenSpent_iff {window : Duration} {i : Nat} {k k' : KeyState}
    {c : Call} {leased : Option Nat} (parked : k.ParkedWhenSpent)
    (change : k.Change window i c leased k') : k'.ParkedWhenSpent ↔ k.MindsQuota i c := by
  cases change with
  | digested now o =>
    rw [digest_parkedWhenSpent_iff o]
    exact ⟨fun takes _ => takes, fun minds => minds rfl⟩
  | bystander now j o other => exact iff_of_true parked (fun same => absurd same other)
  | granted now exclude free =>
    have tidied : k.Tidied now window ((k.refresh now).availability now window).1 := .inr rfl
    have kept := tidied_parkedWhenSpent_iff parked tidied
    exact kept
  | tidied _ _ _ passive other tidied =>
    cases c with
    | record now j o => exact absurd rfl (passive now j o)
    | tryAcquire now exclude => exact tidied_parkedWhenSpent_iff parked tidied
    | snapshot now => exact tidied_parkedWhenSpent_iff parked tidied

namespace Pool

/-- No key that is known to have no monthly quota left is offered. -/
def SpentParked (p : Pool) : Prop := ∀ k ∈ p.keys, k.ParkedWhenSpent

def MindsQuota (p : Pool) (c : Call) : Prop := ∀ (i : Nat) (k : KeyState), p.keys[i]? = some k → k.MindsQuota i c

theorem step_spentParked_iff {p : Pool} (parked : p.SpentParked) (c : Call) :
    (p.step c).SpentParked ↔ p.MindsQuota c := by
  constructor
  · intro after i k here
    obtain ⟨k', there, change⟩ := p.step_key here c
    exact (change.parkedWhenSpent_iff (parked k (List.mem_of_getElem? here))).mp
      (after k' (List.mem_of_getElem? there))
  · intro minds k' member
    obtain ⟨i, there⟩ := List.mem_iff_getElem?.mp member
    obtain ⟨k, here, change⟩ := p.step_key_inv there
    exact (change.parkedWhenSpent_iff (parked k (List.mem_of_getElem? here))).mpr (minds i k here)

theorem new_spentParked (host : Host) (tokens : List String) (cfg : PoolConfig) :
    (new host tokens cfg).SpentParked := by
  intro k member
  obtain ⟨i, here⟩ := List.mem_iff_getElem?.mp member
  obtain ⟨token, rfl⟩ := new_key host tokens cfg here
  rintro ⟨-, -, remaining⟩
  cases remaining

/-- In all states of a run the spent keys are parked exactly when, along the run, outcomes that leave
    nothing of the month find the key parked or park it, and no key is woken up spent. -/
theorem spent_parked_iff (host : Host) (tokens : List String) (cfg : PoolConfig) (cs : List Call) :
    (∀ seen rest, cs = seen ++ rest → ((new host tokens cfg).after seen).SpentParked) ↔
      Runs.Along step MindsQuota (new host tokens cfg) cs := by
  have keep : ∀ (p : Pool) (c : Call), p.SpentParked → ((p.step c).SpentParked ↔ p.MindsQuota c) :=
    fun _ c parked => step_spentParked_iff parked c
  exact Runs.always_iff keep (new_spentParked host tokens cfg)

/-- The last request of the month is for a path that is not there. -/
def last404 : List Call :=
  [.tryAcquire 0 [], .record 1000000000 0
    (.response 404 (some { limit := { month := some 2000 }, remaining := { month := some 0 } }) none)]

theorem spent_offered :
    ¬ ∀ seen rest, last404 = seen ++ rest → ((ofTests ["key"] []).after seen).SpentParked := by
  intro parked
  have spent : ∃ k ∈ ((ofTests ["key"] []).after last404).keys, k.Spent ∧ k.health = .ok := by decide
  obtain ⟨k, member, spent, ok⟩ := spent
  exact parked last404 [] (List.append_nil _).symm k member spent ok

/-- On record for key `i`: a response without a nonzero monthly limit, which moves a key without a
    monthly cap to `exhausted`. -/
def ParksUncapped (p : Pool) (c : Call) : Prop :=
  ∃ now i outcome k k', c = .record now i outcome ∧ p.keys[i]? = some k ∧ k.monthUnlimited = true ∧
    (∀ l, outcome.monthLimit? = some l → l = 0) ∧ (p.step c).keys[i]? = some k' ∧
    k.health.isExhausted = false ∧ k'.health.isExhausted = true

/-- A response is recorded for a key without a monthly cap that is not parked for the month, and
    leaves out the limit while it reports nothing left. -/
def LeavesOutLimit (p : Pool) (c : Call) : Prop :=
  ∃ now i outcome k, c = .record now i outcome ∧ p.keys[i]? = some k ∧ k.monthUnlimited = true ∧
    k.health.isExhausted = false ∧ outcome.SpentWithoutLimit

theorem SpentWithoutLimit.unreported {o : Outcome} (spent : o.SpentWithoutLimit) :
    ∀ l, o.monthLimit? = some l → l = 0 := by
  cases o with
  | transport err => exact spent.elim
  | response status rl bodySnippet =>
    obtain ⟨-, r, rfl, limit, -⟩ := spent
    intro l reported
    rw [show (Outcome.response status (some r) bodySnippet).monthLimit? = none from limit] at reported
    cases reported

theorem parksUncapped_iff (p : Pool) (c : Call) : p.ParksUncapped c ↔ p.LeavesOutLimit c := by
  have recorded {now : Instant} {i : Nat} {outcome : Outcome} {k : KeyState}
      (here : p.keys[i]? = some k) :
      (p.step (.record now i outcome)).keys[i]? = some (k.digest now outcome).1 := by
    simp only [step, serve, record_keys, List.getElem?_modify_eq, here]
    rfl
  constructor
  · rintro ⟨now, i, outcome, k, k', rfl, here, uncapped, unreported, there, before, after⟩
    rw [recorded here] at there
    cases there
    exact ⟨now, i, outcome, k, rfl, here, uncapped, before,
      (KeyState.digest_exhausted_iff uncapped unreported before).mp after⟩
  · rintro ⟨now, i, outcome, k, rfl, here, uncapped, before, spent⟩
    have unreported := SpentWithoutLimit.unreported spent
    exact ⟨now, i, outcome, k, _, rfl, here, uncapped, unreported, recorded here, before,
      (KeyState.digest_exhausted_iff uncapped unreported before).mpr spent⟩

/-- A run parks no key without a monthly cap exactly when none of its responses leaves out the limit
    while reporting nothing left. -/
theorem uncapped_never_parked_iff (p : Pool) (cs : List Call) :
    Runs.Along step (fun p c => ¬ p.ParksUncapped c) p cs ↔
      Runs.Along step (fun p c => ¬ p.LeavesOutLimit c) p cs := by
  constructor
  · exact Runs.Along.mono fun p c kept => (not_congr (p.parksUncapped_iff c)).mp kept
  · exact Runs.Along.mono fun p c kept => (not_congr (p.parksUncapped_iff c)).mpr kept

/-- The plan has no monthly cap, and the second answer does not repeat it. -/
def limitLeftOut : List Call :=
  [.tryAcquire 0 [], .record 1000000000 0
    (.response 200 (some { limit := { second := some 50, month := some 0 }
                           remaining := { second := some 49, month := some 0 } }) none),
    .tryAcquire 2000000000 [], .record 3000000000 0
      (.response 200 (some { remaining := { second := some 49, month := some 0 } }) none)]

theorem uncapped_parked :
    ¬ Runs.Along step (fun p c => ¬ p.ParksUncapped c) (ofTests ["key"] []) limitLeftOut := by
  intro kept
  obtain ⟨-, -, -, last, -⟩ := kept
  exact last ⟨_, _, _, _, _, rfl, rfl, by decide, by simp [Outcome.monthLimit?], rfl, by decide, by decide⟩

end Pool

end BraveRotator
