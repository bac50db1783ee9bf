import BraveRotator.Pool.Pick

namespace BraveRotator

theorem Health.isOk_iff {h : Health} : h.isOk = true ↔ h = .ok := by
  cases h <;> simp [Health.isOk]

namespace Pool

variable (p : Pool) (now : Instant) (exclude : List Nat)

theorem window_pos : 0 < p.window := by
  simp only [window, braveWindow, Duration.fromSecs]
  lia

def spares : Bool := (visited exclude true 0 (p.keys.map (KeyState.refresh · now))).any (·.2.health.isOk)

def candidates : List (Nat × KeyState) :=
  visited exclude (p.spares now exclude) 0 (p.keys.map (KeyState.refresh · now))

/-- What the call makes of key `i` unless it leases it. -/
def settle (i : Nat) (k : KeyState) : KeyState :=
  if p.spares now exclude && exclude.contains i then k.refresh now
  else ((k.refresh now).availability now p.window).1

theorem mem_candidates {i : Nat} {k : KeyState} :
    (i, k) ∈ p.candidates now exclude ↔
      (∃ k₀, p.keys[i]? = some k₀ ∧ k₀.refresh now = k) ∧
        (p.spares now exclude = true → i ∉ exclude) := by
  rw [candidates, mem_visited]
  simp [List.getElem?_map]

theorem spares_iff :
    p.spares now exclude = true ↔ ∃ i k, p.keys[i]? = some k ∧ i ∉ exclude ∧ k.Healthy now := by
  simp only [spares, List.any_eq_true, Prod.exists, mem_visited, Health.isOk_iff]
  simp only [Nat.zero_le, true_and, Nat.sub_zero, List.getElem?_map, Option.map_eq_some_iff]
  constructor
  · rintro ⟨i, k, ⟨⟨k₀, here, rfl⟩, fresh⟩, ok⟩
    exact ⟨i, k₀, here, fresh, (k₀.refresh_ok_iff now).mp ok⟩
  · rintro ⟨i, k, here, fresh, healthy⟩
    exact ⟨i, k.refresh now, ⟨⟨k, here, rfl⟩, fresh⟩, (k.refresh_ok_iff now).mpr healthy⟩

theorem settle_tidied (i : Nat) (k : KeyState) : k.Tidied now p.window (p.settle now exclude i k) := by
  unfold settle
  split
  · exact .inl rfl
  · exact .inr rfl

/-- It looks at the keys that it may lease. -/
theorem settle_of_candidate {i : Nat} (candidate : p.spares now exclude = true → i ∉ exclude)
    (k : KeyState) : p.settle now exclude i k = ((k.refresh now).availability now p.window).1 := by
  unfold settle
  rw [if_neg]
  rw [Bool.and_eq_true, List.contains_iff_mem]
  exact fun both => candidate both.1 both.2

theorem getElem?_settled {i : Nat} {k : KeyState} (here : p.keys[i]? = some k) :
    (p.keys.mapIdx (p.settle now exclude))[i]? = some (p.settle now exclude i k) := by
  rw [List.getElem?_mapIdx, here, Option.map_some]

/-- Where the call makes the same of each key, it leaves them all as they are. -/
theorem settled_eq_self
    (still : ∀ i k, p.keys[i]? = some k → p.settle now exclude i k = k) :
    p.keys.mapIdx (p.settle now exclude) = p.keys := by
  apply List.ext_getElem?
  intro i
  cases here : p.keys[i]? with
  | none => rw [List.getElem?_mapIdx, here, Option.map_none]
  | some k => rw [p.getElem?_settled now exclude here, still i k here]

theorem pick_eq (skipExcluded : Bool) :
    p.pick now exclude skipExcluded =
      ({ p with
        keys := p.keys.mapIdx fun i k =>
          if skipExcluded && exclude.contains i then k else (k.availability now p.window).1 },
        (visited exclude skipExcluded 0 p.keys).foldl (Picked.visitEntry now p.window) {}) := by
  have keys := pickFrom_keys now p.window exclude skipExcluded 0 {} p.keys
  have picked := pickFrom_picked now p.window exclude skipExcluded 0 {} p.keys
  simp only [Nat.zero_add] at keys
  simp only [pick, keys, picked]

/-- A pass that meets no healthy key finds none free and leaves all of them as they were. -/
theorem pass_unhealthy {ks : List KeyState} (window : Duration)
    (sick : (visited exclude true 0 ks).any (·.2.health.isOk) = false) :
    (ks.mapIdx fun i k =>
        if true && exclude.contains i then k else (k.availability now window).1) = ks ∧
      (visited exclude true 0 ks).filterMap (free? now window) = [] := by
  rw [List.any_eq_false] at sick
  constructor
  · apply List.ext_getElem?
    intro i
    rw [List.getElem?_mapIdx]
    cases here : ks[i]? with
    | none => rfl
    | some k =>
      simp only [Option.map_some, Option.some.injEq, Bool.true_and]
      split
      · rfl
      · rename_i fresh
        have member : (i, k) ∈ visited exclude true 0 ks :=
          (mem_visited ..).mpr ⟨Nat.zero_le _, here, by simpa using fresh⟩
        have notOk : k.health ≠ .ok := fun ok => sick _ member (Health.isOk_iff.mpr ok)
        rcases k.availability_cases now window with ⟨_, _, same⟩ | ⟨_, ok, _⟩ | ⟨ok, _⟩
        · rw [same]
        · exact absurd ok notOk
        · exact absurd ok notOk
  · rw [List.filterMap_eq_nil_iff]
    intro entry member
    have notOk : entry.2.health ≠ .ok := fun ok => sick _ member (Health.isOk_iff.mpr ok)
    unfold free?
    split
    · rename_i free
      exact absurd (KeyState.availability_ok_iff.mp free).1 notOk
    · rfl

theorem settle_keys :
    (p.keys.map (KeyState.refresh · now)).mapIdx (fun i k =>
        if p.spares now exclude && exclude.contains i then k
        else (k.availability now p.window).1) =
      p.keys.mapIdx (p.settle now exclude) := by
  apply List.ext_getElem?
  intro i
  simp only [List.getElem?_mapIdx, List.getElem?_map, Option.map_map]
  congr 1

/-- The two passes come to one look at the candidates. -/
theorem choose_eq :
    p.choose now exclude =
      ({ p with keys := p.keys.mapIdx (p.settle now exclude) },
        { best := ((p.candidates now exclude).filterMap (free? now p.window)).argmin (·.2)
          next := ((p.candidates now exclude).filterMap (blocked? now p.window)).min?
          anyHealthy := (p.candidates now exclude).any (·.2.health.isOk) }) := by
  have window (keys : List KeyState) : ({ p with keys } : Pool).window = p.window := rfl
  have settled := p.settle_keys now exclude
  simp only [choose, pick_eq, fold_picked, window]
  cases spares : p.spares now exclude with
  | true =>
    have healthy := spares
    rw [Pool.spares] at healthy
    rw [spares] at settled
    simp only [healthy, candidates, spares, settled, Bool.not_true, Bool.and_false,
      Bool.false_eq_true, if_false]
  | false =>
    have sick := spares
    rw [Pool.spares] at sick
    rw [spares] at settled
    obtain ⟨kept, noneFree⟩ := pass_unhealthy now exclude p.window sick
    cases exclude with
    | nil => simpa [candidates, spares, visited] using settled
    | cons e es =>
      simp only [kept, noneFree, sick, candidates, spares, settled, List.argmin_nil,
        Option.isNone_none, List.isEmpty_cons, Bool.not_false, Bool.and_self, if_true]

def freeScores : List (Nat × Score) := (p.candidates now exclude).filterMap (free? now p.window)

theorem free?_eq_some {now : Instant} {window : Duration} {entry : Nat × KeyState}
    {scored : Nat × Score} :
    free? now window entry = some scored ↔
      (entry.2.availability now window).2 = .ok () ∧ scored = (entry.1, entry.2.score) := by
  unfold free?
  cases (entry.2.availability now window).2 with
  | ok => simp [eq_comm]
  | error u => simp

theorem blocked?_eq_some {now : Instant} {window : Duration} {entry : Nat × KeyState}
    {u : Instant} :
    blocked? now window entry = some u ↔ (entry.2.availability now window).2 = .error u := by
  unfold blocked?
  cases (entry.2.availability now window).2 with
  | ok => simp
  | error u' => simp

theorem mem_freeScores {i : Nat} {score : Score} :
    (i, score) ∈ p.freeScores now exclude ↔ ∃ k, (i, k) ∈ p.candidates now exclude ∧
      (k.availability now p.window).2 = .ok () ∧ score = k.score := by
  simp only [freeScores, List.mem_filterMap, free?_eq_some, Prod.exists, Prod.mk.injEq]
  constructor
  · rintro ⟨j, k, member, free, rfl, rfl⟩
    exact ⟨k, member, free, rfl⟩
  · rintro ⟨k, member, free, rfl⟩
    exact ⟨i, k, member, free, rfl, rfl⟩

inductive Acquired : Pool × Except Next Lease → Prop
  | leased (i : Nat) (k : KeyState) (here : p.keys[i]? = some k)
      (candidate : p.spares now exclude = true → i ∉ exclude)
      (free : ((k.refresh now).availability now p.window).2 = .ok ())
      (best : (p.freeScores now exclude).argmin (·.2) = some (i, (k.refresh now).score)) :
      Acquired ({ p with
          keys := (p.keys.mapIdx (p.settle now exclude)).set i ((p.settle now exclude i k).grant now) },
        .ok (k.lease i))
  | waits (u : Instant) (noneFree : p.freeScores now exclude = [])
      (least : ((p.candidates now exclude).filterMap (blocked? now p.window)).min? = some u)
      (healthy : ∃ i k, (i, k) ∈ p.candidates now exclude ∧ k.health = .ok) :
      Acquired ({ p with keys := p.keys.mapIdx (p.settle now exclude) }, .error (.at u))
  | unavailable (summary : String)
      (sick : ∀ i k, (i, k) ∈ p.candidates now exclude → k.health ≠ .ok) :
      Acquired ({ p with keys := p.keys.mapIdx (p.settle now exclude) },
        .error (.unavailable ((p.candidates now exclude).filterMap (blocked? now p.window)).min?
          summary))

theorem blocked_of_noneFree (noneFree : p.freeScores now exclude = []) {i : Nat} {k : KeyState}
    (member : (i, k) ∈ p.candidates now exclude) :
    ∃ u, u ∈ (p.candidates now exclude).filterMap (blocked? now p.window) := by
  cases result : (k.availability now p.window).2 with
  | error u => exact ⟨u, List.mem_filterMap.mpr ⟨(i, k), member, blocked?_eq_some.mpr result⟩⟩
  | ok =>
    have free : (i, k.score) ∈ p.freeScores now exclude :=
      (p.mem_freeScores now exclude).mpr ⟨k, member, result, rfl⟩
    rw [noneFree] at free
    cases free

theorem tryAcquire_cases : p.Acquired now exclude (p.tryAcquire now exclude) := by
  unfold tryAcquire
  rw [choose_eq]
  dsimp only
  cases best : ((p.candidates now exclude).filterMap (free? now p.window)).argmin (·.2) with
  | some scored =>
    obtain ⟨i, score⟩ := scored
    have member := List.argmin_mem (Option.mem_def.mpr best)
    obtain ⟨k, candidate, free, rfl⟩ := (p.mem_freeScores now exclude).mp member
    obtain ⟨⟨k₀, here, rfl⟩, fresh⟩ := (p.mem_candidates now exclude).mp candidate
    simp only [p.getElem?_settled now exclude here, KeyState.lease_of_tidied (p.settle_tidied now exclude i k₀)]
    exact .leased i k₀ here fresh free best
  | none =>
    have noneFree : p.freeScores now exclude = [] := List.argmin_eq_none.mp best
    by_cases healthy : ((p.candidates now exclude).any (·.2.health.isOk)) = true
    · rw [if_pos healthy]
      obtain ⟨⟨i, k⟩, member, ok⟩ := List.any_eq_true.mp healthy
      obtain ⟨u, blocked⟩ := blocked_of_noneFree p now exclude noneFree member
      obtain ⟨least, same⟩ := Option.isSome_iff_exists.mp (List.isSome_min?_of_mem blocked)
      rw [same, Option.getD_some]
      exact .waits least noneFree same ⟨i, k, member, Health.isOk_iff.mp ok⟩
    · rw [if_neg healthy]
      refine .unavailable _ ?_
      intro i k member ok
      exact healthy (List.any_eq_true.mpr ⟨(i, k), member, Health.isOk_iff.mpr ok⟩)

theorem parked_of_sick (sick : ∀ i k, (i, k) ∈ p.candidates now exclude → k.health ≠ .ok) {i : Nat}
    {k : KeyState} (here : p.keys[i]? = some k) : ¬ k.Healthy now := by
  intro healthy
  by_cases spares : p.spares now exclude = true
  · obtain ⟨j, k', there, fresh, healthy'⟩ := (p.spares_iff now exclude).mp spares
    exact sick j _ ((p.mem_candidates now exclude).mpr ⟨⟨k', there, rfl⟩, fun _ => fresh⟩)
      (k'.refresh_of_healthy now healthy')
  · exact sick i _ ((p.mem_candidates now exclude).mpr ⟨⟨k, here, rfl⟩, fun h => absurd h spares⟩)
      (k.refresh_of_healthy now healthy)

end Pool

end BraveRotator
