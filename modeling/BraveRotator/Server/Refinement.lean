import BraveRotator.Lib.Simulation
import BraveRotator.Server.Flights

namespace BraveRotator

namespace Server

/-- Each lease that is out has a flight of its own. -/
structure Assigned (outs : List (Option Lease)) (flights : List Flight) (m : Nat → Nat) : Prop where
  flies : ∀ i lease, outs[i]? = some (some lease) → { id := m i, lease } ∈ flights
  apart : ∀ i j lease lease', outs[i]? = some (some lease) → outs[j]? = some (some lease') →
    m i = m j → i = j

section Assigned

variable {outs : List (Option Lease)} {flights : List Flight} {m : Nat → Nat} {i : Nat} {lease : Lease}

theorem Assigned.fewer {outs' : List (Option Lease)} (assigned : Assigned outs flights m)
    (fewer : ∀ (i : Nat) (lease : Lease), outs'[i]? = some (some lease) →
      outs[i]? = some (some lease)) :
    Assigned outs' flights m where
  flies i lease out := assigned.flies i lease (fewer i lease out)
  apart i j lease lease' out out' := assigned.apart i j lease lease' (fewer i lease out) (fewer j lease' out')

theorem out_of_set_none {j : Nat} {lease : Lease} (out : (outs.set i none)[j]? = some (some lease)) :
    j ≠ i ∧ outs[j]? = some (some lease) := by
  rw [List.getElem?_set] at out
  split at out
  · split at out <;> cases out
  · rename_i other
    exact ⟨Ne.symm other, out⟩

theorem out_of_set_some {j : Nat} {lease' : Lease}
    (out : (outs.set i (some lease))[j]? = some (some lease')) :
    (j = i ∧ lease' = lease) ∨ (j ≠ i ∧ outs[j]? = some (some lease')) := by
  rw [List.getElem?_set] at out
  split at out
  · split at out
    · cases out
      rename_i same inside
      exact .inl ⟨same.symm, rfl⟩
    · cases out
  · rename_i other
    exact .inr ⟨Ne.symm other, out⟩

theorem Assigned.leased (assigned : Assigned outs flights m) {n : Nat}
    (fresh : ∀ f ∈ flights, f.id < n) :
    Assigned (outs.set i (some lease)) (flights ++ [{ id := n, lease }]) (Function.update m i n) := by
  have old : ∀ j lease, outs[j]? = some (some lease) → m j ≠ n := fun j lease out =>
    (fresh _ (assigned.flies j lease out)).ne
  constructor
  · intro j lease' out
    rcases out_of_set_some out with ⟨rfl, rfl⟩ | ⟨other, before⟩
    · rw [Function.update_self]
      exact List.mem_append_right _ (List.mem_singleton_self _)
    · rw [Function.update_of_ne other]
      exact List.mem_append_left _ (assigned.flies j lease' before)
  · intro j j' a b out out' same
    rcases out_of_set_some out with ⟨rfl, -⟩ | ⟨other, before⟩
    · rcases out_of_set_some out' with ⟨rfl, -⟩ | ⟨other', before'⟩
      · rfl
      · rw [Function.update_self, Function.update_of_ne other'] at same
        exact absurd same.symm (old j' b before')
    · rcases out_of_set_some out' with ⟨rfl, -⟩ | ⟨other', before'⟩
      · rw [Function.update_self, Function.update_of_ne other] at same
        exact absurd same (old j a before)
      · rw [Function.update_of_ne other, Function.update_of_ne other'] at same
        exact assigned.apart j j' a b before before' same

theorem Assigned.recorded (assigned : Assigned outs flights m)
    (sending : outs[i]? = some (some lease)) :
    Assigned (outs.set i none) (flights.filter (·.id ≠ m i)) m := by
  have fewer := assigned.fewer fun j lease' out => (out_of_set_none (i := i) out).2
  refine ⟨fun j lease' out => ?_, fewer.apart⟩
  refine List.mem_filter.mpr ⟨fewer.flies j lease' out, ?_⟩
  obtain ⟨other, before⟩ := out_of_set_none out
  exact decide_eq_true fun same => other (assigned.apart j i lease' lease before sending same)

end Assigned

/-- The pool with its requests out, as clients of any kind would use it, does what the process does. -/
structure Mirrored (s : Server) (t : Traffic) : Prop where
  pool : t.pool = s.pool
  numbered : t.Numbered
  assigned : ∃ m, Assigned s.outs t.flights m

section Step

variable {s : Server} {t : Traffic} {e : ServerEvent}

/-- An event that comes to a call is matched by an event that comes to the same. -/
theorem Mirrored.matched (mirrored : Mirrored s t) (e' : Event) {c : Call}
    (called : s.call? e = some c) (called' : t.call e' = some c)
    (assigned : ∃ m, Assigned (s.step e).outs (t.step e').flights m) :
    ∃ es' : List Event, Mirrored (s.step e) (Runs.exec Traffic.step t es') ∧
      Runs.collect Traffic.step Traffic.call t es' = (s.call? e).toList ∧
      ∀ e' ∈ es', e'.time = e.time := by
  have pool : (t.step e').pool = (s.step e).pool := by
    rw [t.step_pool, s.step_pool, called, called', mirrored.pool]
    rfl
  refine ⟨[e'], ⟨pool, mirrored.numbered.step e', assigned⟩, ?_, ?_⟩
  · rw [called, Runs.collect_cons, called']
    rfl
  · intro e'' member
    rw [List.mem_singleton.mp member, ← t.call_time called', s.call?_time called]

theorem Mirrored.unmatched (mirrored : Mirrored s t) (quiet : s.call? e = none)
    (assigned : ∃ m, Assigned (s.step e).outs t.flights m) :
    ∃ es' : List Event, Mirrored (s.step e) (Runs.exec Traffic.step t es') ∧
      Runs.collect Traffic.step Traffic.call t es' = (s.call? e).toList ∧
      ∀ e' ∈ es', e'.time = e.time := by
  have pool : t.pool = (s.step e).pool := by
    rw [s.step_pool, quiet, mirrored.pool]
    rfl
  refine ⟨[], ⟨pool, mirrored.numbered, assigned⟩, by rw [quiet]; rfl, ?_⟩
  intro e' member
  cases member

theorem flights_acquire (t : Traffic) (now : Instant) (exclude : List Nat) :
    (t.step (.acquire now exclude)).flights =
      t.flights ++ (t.pool.granted (.tryAcquire now exclude)).toList.map fun lease =>
        { id := t.issued, lease } := by
  rw [t.pool.granted_tryAcquire]
  simp only [Traffic.step]
  cases (t.pool.tryAcquire now exclude).2 with
  | error next => exact (List.append_nil _).symm
  | ok lease => rfl

/-- The step lemma. -/
theorem step_refines : Simulation.Matches step ServerEvent.time call? Traffic.step Event.time
    Traffic.call Mirrored := by
  intro s t e mirrored
  obtain ⟨m, assigned⟩ := mirrored.assigned
  have carried := s.step_carried e
  generalize outs' : (s.step e).outs = outs at carried
  cases carried with
  | leases i now exclude lease call granted bare =>
    refine mirrored.matched (.acquire now exclude) call rfl ?_
    rw [outs', flights_acquire, mirrored.pool, granted]
    exact ⟨_, assigned.leased mirrored.numbered.fresh⟩
  | records i now lease o call sending =>
    have found : t.flight (m i) = some { id := m i, lease } :=
      mirrored.numbered.flight (assigned.flies i lease sending)
    refine mirrored.matched (.answer now (m i) o) call ?_ ?_
    · rw [Traffic.call, found]
      rfl
    · simp only [outs', Traffic.step, found]
      exact ⟨m, assigned.recorded sending⟩
  | drops now i same =>
    refine mirrored.unmatched (by rw [same]; rfl) ⟨m, ?_⟩
    rw [outs']
    exact assigned.fewer fun j lease out => (out_of_set_none out).2
  | keeps fresh empty idle undropped =>
    have kept : Assigned (s.step e).outs t.flights m := by
      rw [outs']
      refine assigned.fewer fun j lease out => ?_
      rw [List.getElem?_append] at out
      split at out
      · exact out
      · cases empty _ (List.mem_of_getElem? out)
    cases call : s.call? e with
    | none =>
      rw [← call]
      exact mirrored.unmatched call ⟨m, kept⟩
    | some c =>
      obtain ⟨ungranted, unrecorded⟩ := idle c call
      rw [← call]
      cases c with
      | record now idx o =>
        have some := unrecorded idx
        simp [Call.recorded] at some
      | snapshot now => exact mirrored.matched (.observe now) call rfl ⟨m, kept⟩
      | tryAcquire now exclude =>
        refine mirrored.matched (.acquire now exclude) call rfl ⟨m, ?_⟩
        rw [flights_acquire, mirrored.pool, ungranted]
        simpa using kept

end Step

section New

variable (turnstile : Mutex) (host : Host) (uriError : String → Option String) (cfg : Config)
  (started : Instant)

theorem mirrored_new : Mirrored (new turnstile host uriError cfg started) { pool := cfg.pool host } where
  pool := rfl
  numbered := ⟨List.nodup_nil, nofun⟩
  assigned := ⟨id, nofun, nofun⟩

/-- Whatever its clients do, and in whatever order, the process makes the calls of some traffic of
    leases, each answered once at most, and each call in it that waits for an outcome has its own. -/
theorem refines_traffic (es : List ServerEvent) :
    ∃ ts : List Event,
      ({ pool := cfg.pool host } : Traffic).calls ts = (new turnstile host uriError cfg started).calls es ∧
      (({ pool := cfg.pool host } : Traffic).after ts).pool =
        ((new turnstile host uriError cfg started).after es).pool ∧
      (∀ now, Runs.Ordered ServerEvent.time now es → Runs.Ordered Event.time now ts) ∧
      ∃ m, Assigned ((new turnstile host uriError cfg started).after es).outs
        (({ pool := cfg.pool host } : Traffic).after ts).flights m := by
  obtain ⟨ts, mirrored, calls, ordered⟩ :=
    step_refines.run es (mirrored_new turnstile host uriError cfg started)
  exact ⟨ts, calls, mirrored.pool, ordered, mirrored.assigned⟩

end New

end Server

end BraveRotator
