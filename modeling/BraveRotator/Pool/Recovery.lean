import BraveRotator.Key.Answers
import BraveRotator.Lib.Slots
import BraveRotator.Pool.Choice
import BraveRotator.Pool.Ranges
import BraveRotator.Pool.Stats

namespace BraveRotator

open SlidingWindow

namespace KeyState

/-- What the key is parked for ends within `longest`. -/
def ParkedWithin (longest : Duration) (now : Instant) (k : KeyState) : Prop :=
  ∀ u, k.health.parkedUntil? = some u → u ≤ now + longest

section Parked

variable {k k' : KeyState} {now t : Instant} {longest : Duration}

theorem ParkedWithin.later (parked : k.ParkedWithin longest now) (le : now ≤ t) :
    k.ParkedWithin longest t := fun u until_ => (parked u until_).trans (Nat.add_le_add_right le longest)

theorem ParkedWithin.of_health (parked : k.ParkedWithin longest now)
    (health : k'.health = if k.Healthy now then .ok else k.health) : k'.ParkedWithin longest now := by
  intro u until_
  rw [health] at until_
  split at until_
  · cases until_
  · exact parked u until_

theorem ParkedWithin.digest (parked : k.ParkedWithin longest now) {o : Outcome}
    (fallback : overrideCapFallback ≤ longest)
    (reported : ∀ r, o.monthReset? = some r → r ≤ longest) :
    (k.digest now o).1.ParkedWithin longest now := by
  intro u until_
  rcases (k.digest_health now o).cases with ⟨-, health⟩ | ⟨length, _, park, health⟩ |
    ⟨length, park, health⟩
  · rw [health] at until_
    exact parked u until_
  · rw [health] at until_
    cases until_
    have hour : authBackoffMax ≤ overrideCapFallback := by decide
    exact Nat.add_le_add_left ((disable_length_le park).trans (hour.trans fallback)) now
  · rw [health] at until_
    cases until_
    rcases exhaust_length park with told | short
    · exact Nat.add_le_add_left (reported length told) now
    · exact Nat.add_le_add_left (short.trans fallback) now

theorem ParkedWithin.change {window : Duration} {i : Nat} {c : Call} {leased : Option Nat}
    (parked : k.ParkedWithin longest now) (positive : 0 < window) (le : now ≤ c.time)
    (fallback : overrideCapFallback ≤ longest)
    (reported : ∀ t j o, c = .record t j o → ∀ r, o.monthReset? = some r → r ≤ longest)
    (change : k.Change window i c leased k') : k'.ParkedWithin longest c.time := by
  have current := parked.later le
  cases change with
  | digested now o => exact current.digest fallback (reported now i o rfl)
  | bystander now j o other => exact current
  | granted now exclude free =>
    have cleaned : k.CleanedUp now window _ := k.swept_cleanedUp positive
    exact current.of_health cleaned.health
  | tidied _ _ _ passive other tidied => exact current.of_health (tidied.cleanedUp positive).health

end Parked

/-- Nothing keeps the key from being used but the requests sent less than the window ago. -/
structure Rested (window : Duration) (now : Instant) (k : KeyState) : Prop where
  windowed : ∃ history, k.Windowed window history now
  healthy : k.Healthy now
  free : ¬ k.Held now

def room (window : Duration) (now : Instant) (k : KeyState) : Nat :=
  k.secLimit - recent window now k.sends

section Rested

variable {k k' : KeyState} {now : Instant} {window : Duration} {exclude : List Nat} {i : Nat}
  {leased : Option Nat}

theorem CleanedUp.stays (cleaned : k.CleanedUp now window k') (healthy : k.Healthy now)
    (free : ¬ k.Held now) : k'.Healthy now ∧ ¬ k'.Held now ∧ k'.secLimit = k.secLimit := by
  refine ⟨?_, ?_, by rw [cleaned.fields]⟩
  · rw [← refresh_ok_iff, refresh_health, cleaned.health, if_pos healthy, ite_self]
  · unfold Held at free ⊢
    rcases cleaned.hold with same | ⟨-, none⟩
    · rwa [same]
    · simp [none]

theorem Rested.change (rested : k.Rested window now) (positive : 0 < window)
    (change : k.Change window i (.tryAcquire now exclude) leased k') :
    k'.Rested window now ∧ k'.secLimit = k.secLimit ∧
      recent window now k'.sends = recent window now k.sends + if leased = some i then 1 else 0 := by
  obtain ⟨history, windowed⟩ := rested.windowed
  have windowed' : k'.Windowed window (history ++ if leased = some i then [now] else []) now :=
    windowed.change positive le_rfl change
  have count : recent window now k'.sends =
      recent window now k.sends + if leased = some i then 1 else 0 := by
    rw [← windowed'.tracks.recent_live, ← windowed.tracks.recent_live]
    split
    · exact recent_concat window now history (Nat.lt_add_of_pos_right positive)
    · rw [List.append_nil, Nat.add_zero]
  have kept : k'.Healthy now ∧ ¬ k'.Held now ∧ k'.secLimit = k.secLimit := by
    cases change with
    | granted _ _ free =>
      exact (k.swept_cleanedUp positive).stays rested.healthy rested.free
    | tidied _ _ _ passive other tidied =>
      exact (tidied.cleanedUp positive).stays rested.healthy rested.free
  exact ⟨⟨⟨_, windowed'⟩, kept.1, kept.2.1⟩, kept.2.2, count⟩

theorem Rested.eligible_iff (rested : k.Rested window now) :
    k.Eligible now window ↔ 0 < k.room window now := by
  unfold room
  rw [Nat.sub_pos_iff_lt]
  constructor
  · exact fun eligible => eligible.room
  · exact fun below => ⟨rested.healthy, rested.free, below⟩

end Rested

end KeyState

namespace Pool

def Rested (now : Instant) (p : Pool) : Prop := ∀ k ∈ p.keys, k.Rested p.window now

variable {p : Pool} {now : Instant}

theorem Rested.orderly (rested : p.Rested now) : ∀ k ∈ p.keys, k.Orderly := by
  intro k member
  obtain ⟨history, windowed⟩ := (rested k member).windowed
  exact windowed.toOrderly

theorem Rested.step (rested : p.Rested now) : (p.step (.tryAcquire now [])).Rested now := by
  intro k' member
  obtain ⟨i, there⟩ := List.mem_iff_getElem?.mp member
  obtain ⟨k, here, change⟩ := p.step_key_inv there
  rw [step_window]
  exact ((rested k (List.mem_of_getElem? here)).change p.window_pos change).1

/-- The room of the keys while one is leased. -/
theorem Rested.rooms (rested : p.Rested now) {i n : Nat} {k : KeyState}
    (leased : p.leased (.tryAcquire now []) = some i) (here : p.keys[i]? = some k)
    (left : k.room p.window now = n + 1) :
    (p.step (.tryAcquire now [])).keys.map (KeyState.room p.window now) =
      (p.keys.map (KeyState.room p.window now)).set i n := by
  apply List.ext_getElem?
  intro j
  have inside : i < p.keys.length := (List.getElem?_eq_some_iff.mp here).1
  cases there : p.keys[j]? with
  | none =>
    have outside := List.getElem?_eq_none_iff.mp there
    rw [List.getElem?_eq_none_iff.mpr, List.getElem?_eq_none_iff.mpr]
    · rw [List.length_set, List.length_map]
      exact outside
    · rw [List.length_map, step_length]
      exact outside
  | some k₁ =>
    obtain ⟨k', there', change⟩ := p.step_key there (.tryAcquire now [])
    obtain ⟨-, limit, count⟩ := (rested k₁ (List.mem_of_getElem? there)).change p.window_pos change
    simp only [leased, Option.some_inj] at count
    rw [List.getElem?_map, there', List.getElem?_set, List.length_map, Option.map_some, KeyState.room,
      limit, count]
    by_cases same : i = j
    · subst same
      obtain rfl : k₁ = k := Option.some.inj (there.symm.trans here)
      rw [if_pos rfl, if_pos rfl, if_pos inside, ← Nat.sub_sub]
      exact congrArg some (congrArg Nat.pred left)
    · rw [if_neg same, if_neg same, List.getElem?_map, there]
      rfl

theorem rested_draws (now : Instant) (window : Duration) :
    Slots.Draws step leased (.tryAcquire now []) (fun p => p.keys.map (KeyState.room window now))
      (fun p => p.window = window ∧ p.Rested now) where
  taken := by
    rintro p i ⟨rfl, rested⟩ leased
    obtain ⟨now', exclude, k, call, here, -, free, -⟩ := p.leased_cases leased
    cases call
    have member := List.mem_of_getElem? here
    have eligible := ((rested.orderly k member).free_iff p.window_pos).mp free
    obtain ⟨n, left⟩ := Nat.exists_eq_add_one_of_ne_zero
      ((rested k member).eligible_iff.mp eligible).ne'
    refine ⟨n, ?_, rested.rooms leased here left⟩
    rw [List.getElem?_map, here, Option.map_some, left]
  refused := by
    rintro p ⟨rfl, rested⟩ refused n member
    obtain ⟨k, inside, rfl⟩ := List.mem_map.mp member
    obtain ⟨i, here⟩ := List.mem_iff_getElem?.mp inside
    by_contra some_
    have eligible := (rested k inside).eligible_iff.mpr (Nat.pos_of_ne_zero some_)
    obtain ⟨lease, granted⟩ := (tryAcquire_selects rested.orderly).leases.mpr
      ⟨i, k, ⟨here, fun _ => List.not_mem_nil⟩, eligible⟩
    rw [leased_tryAcquire, granted] at refused
    cases refused
  keep := by
    rintro p i ⟨window, rested⟩ -
    exact ⟨(p.step_window _).trans window, rested.step⟩

/-- With a key left to try and room on it, a request goes out. -/
theorem Rested.grants (rested : p.Rested now) (roomy : ∀ k ∈ p.keys, 0 < k.room p.window now)
    (some_ : p.keys ≠ []) (exclude : List Nat) :
    ∃ lease, (p.tryAcquire now exclude).2 = .ok lease := by
  apply (tryAcquire_selects rested.orderly).leases.mpr
  have eligible : ∀ (i : Nat) (k : KeyState), p.keys[i]? = some k → k.Eligible now p.window := by
    intro i k here
    have member := List.mem_of_getElem? here
    exact (rested k member).eligible_iff.mpr (roomy k member)
  by_cases spare : ∃ j k', p.keys[j]? = some k' ∧ j ∉ exclude ∧ k'.Healthy now
  · obtain ⟨j, k, here, fresh, healthy⟩ := spare
    exact ⟨j, k, ⟨here, fun _ => fresh⟩, eligible j k here⟩
  · obtain ⟨k, rest, keys⟩ := List.exists_cons_of_ne_nil some_
    have here : p.keys[0]? = some k := by rw [keys, List.getElem?_cons_zero]
    exact ⟨0, k, ⟨here, fun able => absurd able spare⟩, eligible 0 k here⟩

section New

variable (host : Host) (tokens : List String) (cfg : PoolConfig)

theorem parked_run {cs : List Call} {longest : Duration} (fallback : overrideCapFallback ≤ longest)
    (ordered : Runs.Ordered Call.time 0 cs)
    (reported : ∀ t i o, Call.record t i o ∈ cs → ∀ r, o.monthReset? = some r → r ≤ longest) :
    ∀ k ∈ ((new host tokens cfg).after cs).keys, k.Bounded (Runs.clock Call.time 0 cs) ∧
      k.ParkedWithin longest (Runs.clock Call.time 0 cs) := by
  have keep : ∀ (now : Instant) (q : Pool) (c : Call),
      (q.Bounded now ∧ ∀ k ∈ q.keys, k.ParkedWithin longest now) → now ≤ c.time →
      (∀ t j o, c = .record t j o → ∀ r, o.monthReset? = some r → r ≤ longest) →
      (q.step c).Bounded c.time ∧ ∀ k ∈ (q.step c).keys, k.ParkedWithin longest c.time := by
    rintro now q c ⟨bounded, parked⟩ le told
    refine ⟨bounded.step le, ?_⟩
    intro k' member
    obtain ⟨i, there⟩ := List.mem_iff_getElem?.mp member
    obtain ⟨k, here, change⟩ := q.step_key_inv there
    exact (parked k (List.mem_of_getElem? here)).change q.window_pos le fallback told change
  have start : (new host tokens cfg).Bounded 0 ∧
      ∀ k ∈ (new host tokens cfg).keys, k.ParkedWithin longest 0 := by
    refine ⟨new_bounded host tokens cfg 0, ?_⟩
    intro k member u until_
    obtain ⟨i, here⟩ := List.mem_iff_getElem?.mp member
    obtain ⟨token, rfl⟩ := new_key host tokens cfg here
    cases until_
  have along : Runs.Along step
      (fun _ c => ∀ t j o, c = Call.record t j o → ∀ r, o.monthReset? = some r → r ≤ longest)
      (new host tokens cfg) cs := by
    rw [Runs.along_iff_split]
    rintro before c after rfl t j o rfl
    exact reported t j o (by simp)
  obtain ⟨bounded, parked⟩ := Runs.timed_invariant keep start ordered along
  exact fun k member => ⟨bounded k member, parked k member⟩

/-- A pool that has been left alone for long enough is at rest, and its windows are empty. -/
theorem rested_run {cs : List Call} {longest : Duration} {now : Instant}
    (ordered : Runs.Ordered Call.time 0 cs)
    (reported : ∀ t i o, Call.record t i o ∈ cs → ∀ r, o.monthReset? = some r → r ≤ longest)
    (late : Runs.clock Call.time 0 cs + max (max longest overrideCapFallback) (new host tokens cfg).window ≤
      now) :
    ((new host tokens cfg).after cs).Rested now ∧ ∀ k ∈ ((new host tokens cfg).after cs).keys,
      k.room (new host tokens cfg).window now = k.secLimit := by
  have window := (new host tokens cfg).after_window cs
  have bounds := parked_run host tokens cfg (le_max_right longest overrideCapFallback) ordered
    fun t i o member r told => (reported t i o member r told).trans (le_max_left ..)
  have gone : Runs.clock Call.time 0 cs + max longest overrideCapFallback ≤ now :=
    (Nat.add_le_add_left (le_max_left ..) _).trans late
  have passed : Runs.clock Call.time 0 cs + (new host tokens cfg).window ≤ now :=
    (Nat.add_le_add_left (le_max_right ..) _).trans late
  constructor
  · intro k member
    obtain ⟨i, here⟩ := List.mem_iff_getElem?.mp member
    obtain ⟨bounded, parked⟩ := bounds k member
    have windowed := windowed_run host tokens cfg ordered i k here
    rw [← window] at windowed
    refine ⟨⟨_, windowed.advance ((Nat.le_add_right _ _).trans gone)⟩, ?_, ?_⟩
    · exact fun u until_ => (parked u until_).trans gone
    · rintro ⟨h, held, ahead⟩
      have hour : authBackoffMax ≤ overrideCapFallback := by decide
      have short := (bounded.held_le held).trans
        (Nat.add_le_add_left (hour.trans (le_max_right longest overrideCapFallback)) _)
      exact absurd (short.trans gone) (Nat.not_le.mpr ahead)
  · intro k member
    have none : recent (new host tokens cfg).window now k.sends = 0 := by
      rw [recent, List.countP_eq_zero]
      intro t sent
      have past := Nat.add_le_add_right ((bounds k member).1.sends t sent) (new host tokens cfg).window
      rw [decide_eq_true_eq, not_lt]
      exact past.trans passed
    rw [KeyState.room, none, Nat.sub_zero]

/-- However a pool has been treated, once it has been left alone for long enough each of its keys takes
    as many requests at once as it is allowed per second, and no more. Enough is the window, thirty
    days, and the longest time that an answer said is left of a month. -/
theorem recovers (cs : List Call) (longest : Duration) (ordered : Runs.Ordered Call.time 0 cs)
    (reported : ∀ t i o, Call.record t i o ∈ cs → ∀ r, o.monthReset? = some r → r ≤ longest)
    (now : Instant)
    (late : Runs.clock Call.time 0 cs + max (max longest overrideCapFallback) (new host tokens cfg).window ≤
      now) :
    let p := (new host tokens cfg).after cs
    let calls := List.replicate (p.keys.map KeyState.secLimit).sum (Call.tryAcquire now [])
    (p.turns calls).length = (p.keys.map KeyState.secLimit).sum ∧
      (∀ i k, p.keys[i]? = some k → (p.turns calls).count i = k.secLimit) ∧
      (p.after calls).leased (.tryAcquire now []) = none ∧
      (tokens ≠ [] → ∀ exclude, ∃ lease, (p.tryAcquire now exclude).2 = .ok lease) := by
  intro p calls
  obtain ⟨rested, rooms⟩ := rested_run host tokens cfg ordered reported late
  rw [← (new host tokens cfg).after_window cs] at rooms
  have same : p.keys.map (KeyState.room p.window now) = p.keys.map KeyState.secLimit :=
    List.map_congr_left rooms
  obtain ⟨length, counts, last⟩ := (rested_draws now p.window).drained ⟨rfl, rested⟩
  simp only [same] at length counts last
  refine ⟨length, ?_, last, ?_⟩
  · intro i k here
    apply counts
    rw [List.getElem?_map, here]
    rfl
  · intro some_ exclude
    apply rested.grants _ _ exclude
    · intro k member
      rw [rooms k member]
      exact (rested.orderly k member).positive
    · intro empty
      have size : p.keys.length = (new host tokens cfg).keys.length := after_length _ cs
      rw [empty, new, List.length_mapIdx] at size
      exact some_ (List.length_eq_zero_iff.mp size.symm)

end New

/-- A run after which the only key is disabled. -/
def rejected : List Call := [.tryAcquire 0 [], .record 1 0 (.response 401 none none)]

theorem rejected_recovers :
    ∃ lease, (((ofTests ["key"] []).after rejected).tryAcquire (1 + overrideCapFallback) [0]).2 =
      .ok lease := by
  have silent : ∀ t i o, Call.record t i o ∈ rejected → ∀ r, o.monthReset? = some r → r ≤ 0 := by
    intro t i o member r told
    rcases List.mem_cons.mp member with same | member
    · cases same
    · cases List.mem_singleton.mp member
      cases told
  have recovered := recovers (ofTests ["key"] []).host ["key"] (ofTests ["key"] []).cfg rejected 0
    (by decide) silent (1 + overrideCapFallback) (by decide)
  exact recovered.2.2.2 (List.cons_ne_nil "key" []) [0]

end Pool

end BraveRotator
