import BraveRotator.Pool.TryAcquire

namespace BraveRotator

/-- What a call does to key `i`, given the key it leases. -/
inductive KeyState.Change (window : Duration) (i : Nat) (k : KeyState) :
    Call → Option Nat → KeyState → Prop
  | digested (now : Instant) (outcome : Outcome) :
      Change window i k (.record now i outcome) none (k.digest now outcome).1
  | bystander (now : Instant) (j : Nat) (outcome : Outcome) (other : j ≠ i) :
      Change window i k (.record now j outcome) none k
  | granted (now : Instant) (exclude : List Nat)
      (free : ((k.refresh now).availability now window).2 = .ok ()) :
      Change window i k (.tryAcquire now exclude) (some i)
        (((k.refresh now).availability now window).1.grant now)
  | tidied (c : Call) (leased : Option Nat) (k' : KeyState)
      (passive : ∀ now j outcome, c ≠ .record now j outcome) (other : leased ≠ some i)
      (tidied : k.Tidied c.time window k') : Change window i k c leased k'

theorem snapshotFrom_keys (host : Host) (now : Instant) (window : Duration) (out : PoolSnapshot)
    (ks : List KeyState) :
    (snapshotFrom host now window out ks).1 =
      ks.map fun k => ((k.refresh now).availability now window).1 := by
  induction ks generalizing out with
  | nil => rfl
  | cons k ks ih => simp only [snapshotFrom, ih, List.map_cons]

namespace Pool

theorem new_key (host : Host) (tokens : List String) (cfg : PoolConfig) {i : Nat} {k : KeyState}
    (here : (new host tokens cfg).keys[i]? = some k) :
    ∃ token, k = .new i token cfg.defaultRps ((cfg.monthlyLimits[i]?).join) := by
  obtain ⟨token, -, rfl⟩ : ∃ token, tokens[i]? = some token ∧
      KeyState.new i token cfg.defaultRps ((cfg.monthlyLimits[i]?).join) = k := by
    simpa [new, List.getElem?_mapIdx] using here
  exact ⟨token, rfl⟩

variable (p : Pool)

theorem snapshot_keys (now : Instant) :
    (p.snapshot now).1.keys = p.keys.map fun k => ((k.refresh now).availability now p.window).1 :=
  snapshotFrom_keys ..

theorem record_keys (now : Instant) (idx : Nat) (outcome : Outcome) :
    (p.record now idx outcome).1.keys = p.keys.modify idx fun k => (k.digest now outcome).1 := by
  unfold record
  cases here : p.keys[idx]? with
  | none => rw [List.modify_eq_self (List.getElem?_eq_none_iff.mp here)]
  | some k => rw [List.modify_eq_set_getElem?, here]; rfl

theorem granted_tryAcquire (now : Instant) (exclude : List Nat) :
    p.granted (.tryAcquire now exclude) = (p.tryAcquire now exclude).2.toOption := by
  simp only [granted, serve]
  cases (p.tryAcquire now exclude).2 <;> rfl

theorem leased_tryAcquire (now : Instant) (exclude : List Nat) :
    p.leased (.tryAcquire now exclude) = (p.tryAcquire now exclude).2.toOption.map Lease.idx := by
  rw [leased, granted_tryAcquire]

@[simp] theorem leased_record (now : Instant) (idx : Nat) (outcome : Outcome) :
    p.leased (.record now idx outcome) = none := rfl

@[simp] theorem leased_snapshot (now : Instant) : p.leased (.snapshot now) = none := rfl

/-- Calls leave alone all but the keys. -/
theorem step_fixed (c : Call) : (p.step c).cfg = p.cfg ∧ (p.step c).host = p.host := by
  cases c with
  | tryAcquire now exclude =>
    have cases := p.tryAcquire_cases now exclude
    simp only [step, serve]
    generalize p.tryAcquire now exclude = result at cases
    cases cases <;> exact ⟨rfl, rfl⟩
  | record now idx outcome =>
    simp only [step, serve, record]
    split <;> exact ⟨rfl, rfl⟩
  | snapshot now => exact ⟨rfl, rfl⟩

theorem step_cfg (c : Call) : (p.step c).cfg = p.cfg := (p.step_fixed c).1

theorem step_host (c : Call) : (p.step c).host = p.host := (p.step_fixed c).2

@[simp] theorem step_window (c : Call) : (p.step c).window = p.window := by
  simp only [window, step_cfg]

theorem after_append (as bs : List Call) : p.after (as ++ bs) = (p.after as).after bs :=
  Runs.exec_append ..

theorem after_concat (cs : List Call) (c : Call) : p.after (cs ++ [c]) = (p.after cs).step c :=
  p.after_append cs [c]

@[simp] theorem after_window (cs : List Call) : (p.after cs).window = p.window :=
  Runs.exec_invariant' (I := fun q : Pool => q.window = p.window)
    (fun q c same => (q.step_window c).trans same) cs rfl

/-- The one account of what calls do to a key. -/
theorem step_key {i : Nat} {k : KeyState} (here : p.keys[i]? = some k) (c : Call) :
    ∃ k', (p.step c).keys[i]? = some k' ∧ k.Change p.window i c (p.leased c) k' := by
  cases c with
  | record now idx outcome =>
    simp only [step, serve, record_keys, leased_record]
    by_cases same : idx = i
    · subst same
      exact ⟨_, by rw [List.getElem?_modify_eq, here]; rfl, .digested now outcome⟩
    · exact ⟨k, by rw [List.getElem?_modify_ne _ _ same, here], .bystander now idx outcome same⟩
  | snapshot now =>
    refine ⟨((k.refresh now).availability now p.window).1, ?_, .tidied _ _ _ (by simp) (by simp)
      (.inr rfl)⟩
    simp only [step, serve, snapshot_keys, List.getElem?_map, here, Option.map_some]
  | tryAcquire now exclude =>
    have cases := p.tryAcquire_cases now exclude
    rw [leased_tryAcquire]
    simp only [step, serve]
    generalize p.tryAcquire now exclude = result at cases
    have settled := p.getElem?_settled now exclude here
    have tidied := p.settle_tidied now exclude i k
    cases cases with
    | leased j kj there candidate free best =>
      by_cases same : j = i
      · subst same
        have one : kj = k := Option.some.inj (there.symm.trans here)
        subst one
        have inside : j < (p.keys.mapIdx (p.settle now exclude)).length :=
          (List.getElem?_eq_some_iff.mp settled).1
        have touched := p.settle_of_candidate now exclude candidate kj
        refine ⟨_, List.getElem?_set_self inside, ?_⟩
        rw [touched]
        exact .granted now exclude free
      · have passed : (Except.toOption (ε := Next) (.ok (kj.lease j))).map Lease.idx ≠ some i := by
          simpa [Except.toOption, KeyState.lease] using same
        refine ⟨p.settle now exclude i k, ?_, .tidied _ _ _ (by simp) passed tidied⟩
        rw [List.getElem?_set_ne same, settled]
    | waits u noneFree least healthy =>
      exact ⟨_, settled, .tidied _ _ _ (by simp) (by simp [Except.toOption]) tidied⟩
    | unavailable summary sick =>
      exact ⟨_, settled, .tidied _ _ _ (by simp) (by simp [Except.toOption]) tidied⟩

theorem step_length (c : Call) : (p.step c).keys.length = p.keys.length := by
  cases c with
  | record now idx outcome => simp [step, serve, record_keys]
  | snapshot now => simp [step, serve, snapshot_keys]
  | tryAcquire now exclude =>
    have cases := p.tryAcquire_cases now exclude
    simp only [step, serve]
    generalize p.tryAcquire now exclude = result at cases
    cases cases <;> simp

theorem step_key_inv {i : Nat} {k' : KeyState} {c : Call} (there : (p.step c).keys[i]? = some k') :
    ∃ k, p.keys[i]? = some k ∧ k.Change p.window i c (p.leased c) k' := by
  have inside : i < p.keys.length := by
    rw [← p.step_length c]
    exact (List.getElem?_eq_some_iff.mp there).1
  obtain ⟨k, here⟩ : ∃ k, p.keys[i]? = some k := ⟨_, List.getElem?_eq_getElem inside⟩
  obtain ⟨k'', there', change⟩ := p.step_key here c
  rw [there] at there'
  cases there'
  exact ⟨k, here, change⟩

theorem best_of_leased {now : Instant} {exclude : List Nat} {i : Nat}
    (leased : p.leased (.tryAcquire now exclude) = some i) :
    ∃ k, p.keys[i]? = some k ∧ (p.spares now exclude = true → i ∉ exclude) ∧
      ((k.refresh now).availability now p.window).2 = .ok () ∧
      (p.freeScores now exclude).argmin (·.2) = some (i, (k.refresh now).score) := by
  have cases := p.tryAcquire_cases now exclude
  rw [leased_tryAcquire] at leased
  generalize p.tryAcquire now exclude = result at cases leased
  cases cases with
  | leased j k here candidate free best =>
    obtain rfl : j = i := by simpa [Except.toOption, KeyState.lease] using leased
    exact ⟨k, here, candidate, free, best⟩
  | waits u noneFree least healthy => simp [Except.toOption] at leased
  | unavailable summary sick => simp [Except.toOption] at leased

theorem leased_cases {c : Call} {i : Nat} (leased : p.leased c = some i) :
    ∃ now exclude k, c = .tryAcquire now exclude ∧ p.keys[i]? = some k ∧
      (p.spares now exclude = true → i ∉ exclude) ∧
      ((k.refresh now).availability now p.window).2 = .ok () ∧
      ∀ j score, (j, score) ∈ p.freeScores now exclude → (k.refresh now).score ≤ score := by
  cases c with
  | record now idx outcome => cases leased
  | snapshot now => cases leased
  | tryAcquire now exclude =>
    obtain ⟨k, here, candidate, free, best⟩ := p.best_of_leased leased
    exact ⟨now, exclude, k, rfl, here, candidate, free,
      fun _ _ other => List.le_of_mem_argmin other (Option.mem_def.mpr best)⟩

theorem leased_of_free {i : Nat} {k : KeyState} {now : Instant} (here : p.keys[i]? = some k)
    (free : ((k.refresh now).availability now p.window).2 = .ok ()) :
    ∃ exclude, p.leased (.tryAcquire now exclude) = some i := by
  let others := (List.range p.keys.length).filter (· ≠ i)
  have fresh : i ∉ others := by simp [others]
  have healthy := (k.refresh_ok_iff now).mp (KeyState.availability_ok_iff.mp free).1
  have spares : p.spares now others = true :=
    (p.spares_iff now others).mpr ⟨i, k, here, fresh, healthy⟩
  have candidate : (i, k.refresh now) ∈ p.candidates now others :=
    (p.mem_candidates now others).mpr ⟨⟨k, here, rfl⟩, fun _ => fresh⟩
  refine ⟨others, ?_⟩
  have cases := p.tryAcquire_cases now others
  rw [leased_tryAcquire]
  generalize p.tryAcquire now others = result at cases
  cases cases with
  | leased j k' there allowed free' best =>
    have inside : j < p.keys.length := (List.getElem?_eq_some_iff.mp there).1
    have same : j = i := by
      by_contra other
      exact allowed spares (by simp [others, inside, other])
    subst same
    rfl
  | waits u noneFree least healthy' =>
    have scored : (i, (k.refresh now).score) ∈ p.freeScores now others :=
      (p.mem_freeScores now others).mpr ⟨_, candidate, free, rfl⟩
    rw [noneFree] at scored
    cases scored
  | unavailable summary sick => exact absurd (k.refresh_of_healthy now healthy) (sick i _ candidate)

end Pool

end BraveRotator
