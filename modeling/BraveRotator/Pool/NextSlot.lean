import BraveRotator.Pool.Choice
import BraveRotator.Pool.Waiting

namespace BraveRotator

namespace KeyState

/-- When the first thing ends that `availability` finds in the way at `now`: the park, else the hold,
    else the oldest send that is not a window old. -/
def obstacle? (k : KeyState) (now : Instant) (window : Duration) : Option Instant :=
  (k.health.parkedUntil?.filter (now < ·)).or
    ((k.holdUntil.filter (now < ·)).or ((k.sends.find? (now < · + window)).map (· + window)))

/-- At `t`, neither a hold nor the window is in the way. -/
structure Clear (k : KeyState) (t : Instant) (window : Duration) : Prop where
  free : ¬ k.Held t
  room : SlidingWindow.recent window t k.sends < k.secLimit

section Obstacle

variable {k : KeyState} {now u : Instant} {window : Duration}

theorem filter_eq_none {o : Option Instant} (past : ∀ u, o = some u → u ≤ now) :
    o.filter (now < ·) = none := by
  cases o with
  | none => rfl
  | some u => exact if_neg (by simpa using past u rfl)

theorem pruned_head_eq (k : KeyState) (positive : 0 < window) :
    (k.pruneWindow now window).sends.head? = k.sends.find? (now < · + window) := by
  rw [pruneWindow_sends positive, ← List.find?_not_eq_head?_dropWhile]
  congr 1
  funext t
  rw [← decide_not, decide_eq_decide, Nat.not_le]

theorem obstacle_of_look (positive : 0 < window) (refused : (k.look now window).2 = .error u) :
    k.obstacle? now window = some u := by
  unfold obstacle?
  rcases availability_error refused with parked | ⟨ok, held, ahead⟩ | ⟨ok, free, oldest, front, rfl, -⟩
  · obtain ⟨parked, ahead⟩ := parked_of_refresh parked
    rw [parked, Option.filter_some, if_pos (decide_eq_true ahead), Option.some_or]
  · have healthy := (k.refresh_ok_iff now).mp ok
    rw [refresh_holdUntil] at held
    rw [filter_eq_none healthy, Option.none_or, held, Option.filter_some,
      if_pos (decide_eq_true ahead), Option.some_or]
  · have healthy := (k.refresh_ok_iff now).mp ok
    have past : ∀ h, k.holdUntil = some h → h ≤ now := by
      intro h held
      by_contra ahead
      exact free ⟨h, by rw [refresh_holdUntil, held], Nat.lt_of_not_le ahead⟩
    rw [pruned_head_eq _ positive, refresh_sends] at front
    rw [filter_eq_none healthy, Option.none_or, filter_eq_none past, Option.none_or, front]
    rfl

theorem healthy_of_look (refused : (k.look now window).2 = .error u) : k.Healthy u := by
  have future := look_future refused
  rcases availability_error refused with parked | ⟨ok, -⟩ | ⟨ok, -⟩
  · intro u' parked'
    have same := (parked_of_refresh parked).1.symm.trans parked'
    exact (Option.some.inj same).ge
  · exact ((k.refresh_ok_iff now).mp ok).later future.le
  · exact ((k.refresh_ok_iff now).mp ok).later future.le

/-- Once its first obstacle is over, a key is eligible when there was no other. -/
theorem eligible_iff_clear (refused : (k.look now window).2 = .error u) :
    k.Eligible u window ↔ k.Clear u window :=
  ⟨fun eligible => ⟨eligible.free, eligible.room⟩,
    fun clear => ⟨healthy_of_look refused, clear.free, clear.room⟩⟩

end Obstacle

end KeyState

namespace Pool

variable {p : Pool} {now u : Instant} {exclude : List Nat}

/-- The call is refused, and `u` is named as the instant to come back at. -/
def Names (p : Pool) (now : Instant) (exclude : List Nat) (u : Instant) : Prop :=
  (p.tryAcquire now exclude).2 = .error (.at u) ∨
    ∃ summary, (p.tryAcquire now exclude).2 = .error (.unavailable (some u) summary)

/-- Of the keys considered, one whose first obstacle is over before that of any other has no further
    obstacle then; and if it is an excluded one, no key that is not excluded has become healthy by
    then. -/
def FirstIsLast (p : Pool) (now : Instant) (exclude : List Nat) : Prop :=
  ∃ i k u, p.Candidate now exclude i k ∧ k.obstacle? now p.window = some u ∧
    (∀ j k' v, p.Candidate now exclude j k' → k'.obstacle? now p.window = some v → u ≤ v) ∧
    k.Clear u p.window ∧
    (i ∈ exclude → ∀ j k', p.keys[j]? = some k' → j ∉ exclude → ¬ k'.Healthy u)

theorem Names.inv (names : p.Names now exclude u) :
    (p.tryAcquire now exclude).1.keys = p.keys.mapIdx (p.settle now exclude) ∧
      (p.tryAcquire now exclude).1.window = p.window ∧
      p.freeScores now exclude = [] ∧
      ((p.candidates now exclude).filterMap (blocked? now p.window)).min? = some u := by
  have cases := p.tryAcquire_cases now exclude
  unfold Names at names
  generalize p.tryAcquire now exclude = result at cases names ⊢
  cases cases with
  | leased i k here candidate free best =>
    rcases names with refused | ⟨summary, refused⟩
    · cases refused
    · cases refused
  | waits u' noneFree least healthy =>
    rcases names with refused | ⟨summary, refused⟩
    · cases refused
      exact ⟨rfl, rfl, noneFree, least⟩
    · cases refused
  | unavailable summary' sick =>
    rcases names with refused | ⟨summary, refused⟩
    · cases refused
    · have least := congrArg (fun r : Except Next Lease => match r with
        | .error (.unavailable earliest _) => earliest
        | _ => none) refused
      exact ⟨rfl, rfl, p.noneFree_of_sick now exclude sick, least⟩

theorem Candidate.blocked {i : Nat} {k : KeyState} (candidate : p.Candidate now exclude i k)
    (noneFree : p.freeScores now exclude = [])
    (least : ((p.candidates now exclude).filterMap (blocked? now p.window)).min? = some u) :
    ∃ v, (k.look now p.window).2 = .error v ∧ u ≤ v :=
  blocked_of_least noneFree least candidate.1 (candidate_iff.mp candidate).2

/-- The key whose first obstacle is over at the instant named. -/
theorem exists_named
    (least : ((p.candidates now exclude).filterMap (blocked? now p.window)).min? = some u) :
    ∃ i k, p.Candidate now exclude i k ∧ (k.look now p.window).2 = .error u := by
  obtain ⟨⟨i, k⟩, member, named⟩ := List.mem_filterMap.mp (List.min?_eq_some_iff.mp least).1
  obtain ⟨⟨k₀, here, rfl⟩, fresh⟩ := (p.mem_candidates now exclude).mp member
  exact ⟨i, k₀, candidate_iff.mpr ⟨here, fresh⟩, blocked?_eq_some.mp named⟩

/-- Keys to choose from later are keys to choose from now: waiting only makes keys healthy. -/
theorem Candidate.before {later : Instant} {i : Nat} {k : KeyState}
    (candidate : p.Candidate later exclude i k) (le : now ≤ later) :
    p.Candidate now exclude i k := by
  refine ⟨candidate.1, ?_⟩
  rintro ⟨j, k', there, fresh, healthy⟩
  exact candidate.2 ⟨j, k', there, fresh, healthy.later le⟩

theorem eligible_iff_firstIsLast (names : p.Names now exclude u) (orderly : ∀ k ∈ p.keys, k.Orderly) :
    (∃ i k, p.Candidate u exclude i k ∧ k.Eligible u p.window) ↔ p.FirstIsLast now exclude := by
  obtain ⟨-, -, noneFree, least⟩ := names.inv
  obtain ⟨i₀, k₀, first, named⟩ := exists_named least
  have future := KeyState.look_future named
  constructor
  · rintro ⟨i, k, candidate, eligible⟩
    have before := candidate.before future.le
    obtain ⟨v, refused, le⟩ := before.blocked noneFree least
    have ended : v ≤ u := by
      by_contra ahead
      exact KeyState.look_refused p.window_pos refused future.le (Nat.lt_of_not_le ahead)
        ((free_eligible orderly candidate.1).mpr eligible)
    obtain rfl : u = v := Nat.le_antisymm le ended
    refine ⟨i, k, u, before, KeyState.obstacle_of_look p.window_pos refused, ?_,
      (KeyState.eligible_iff_clear refused).mp eligible, ?_⟩
    · intro j k' v other obstacle
      obtain ⟨v', refused', le'⟩ := other.blocked noneFree least
      rw [KeyState.obstacle_of_look p.window_pos refused'] at obstacle
      cases obstacle
      exact le'
    · intro excluded j k' there fresh healthy
      exact candidate.2 ⟨j, k', there, fresh, healthy⟩ excluded
  · rintro ⟨i, k, u', candidate, obstacle, earliest, clear, alone⟩
    obtain ⟨v, refused, le⟩ := candidate.blocked noneFree least
    rw [KeyState.obstacle_of_look p.window_pos refused] at obstacle
    cases obstacle
    have le' := earliest i₀ k₀ u first (KeyState.obstacle_of_look p.window_pos named)
    obtain rfl : u = u' := Nat.le_antisymm le le'
    refine ⟨i, k, ⟨candidate.1, ?_⟩, (KeyState.eligible_iff_clear refused).mpr clear⟩
    rintro ⟨j, k', there, fresh, healthy⟩ excluded
    exact alone excluded j k' there fresh healthy

theorem leases_iff_of_sameView {p' : Pool} (same : SameView now p p') (exclude : List Nat)
    {later : Instant} (le : now ≤ later) :
    (∃ lease, (p'.tryAcquire later exclude).2 = .ok lease) ↔
      ∃ lease, (p.tryAcquire later exclude).2 = .ok lease := by
  have replies : reply (p'.tryAcquire later exclude).2 = reply (p.tryAcquire later exclude).2 := by
    rw [reply_eq_answer, reply_eq_answer, same.2 later le]
  have done (result : Except Next Lease) :
      (∃ lease, result = .ok lease) ↔ ∃ lease, reply result = .done lease := by
    rcases result with (u | ⟨earliest, summary⟩) | lease <;> simp [reply]
  rw [done, done, replies]

/-- Coming back at the instant named gets a lease exactly when the obstacle that is over by then is the
    last one. -/
theorem wait_suffices_iff (host : Host) (tokens : List String) (cfg : PoolConfig) (cs : List Call)
    (now : Instant) (exclude : List Nat) (u : Instant)
    (ordered : InOrder ((new host tokens cfg).leases cs))
    (names : ((new host tokens cfg).after cs).Names now exclude u) :
    (∃ lease, ((((new host tokens cfg).after cs).tryAcquire now exclude).1.tryAcquire u exclude).2 =
        .ok lease) ↔
      ((new host tokens cfg).after cs).FirstIsLast now exclude := by
  have orderly : ∀ k ∈ ((new host tokens cfg).after cs).keys, k.Orderly := by
    intro k member
    obtain ⟨i, here⟩ := List.mem_iff_getElem?.mp member
    exact (remembers_run host tokens cfg ordered i k here).toOrderly
  generalize (new host tokens cfg).after cs = p at names orderly ⊢
  obtain ⟨keys, window, -, least⟩ := names.inv
  obtain ⟨i, k, -, named⟩ := exists_named least
  have waited := leases_iff_of_sameView (sameView_of_settled keys window) exclude
    (KeyState.look_future named).le
  rw [waited, (tryAcquire_selects orderly).leases]
  exact eligible_iff_firstIsLast names orderly

theorem window_is_last : ((ofTests ["key"] []).after [.tryAcquire 0 []]).FirstIsLast 500000000 [] := by
  generalize pool : (ofTests ["key"] []).after [.tryAcquire 0 []] = p
  have state : p.window = 1100000000 ∧ ∃ k, p.keys = [k] ∧
      k.obstacle? 500000000 1100000000 = some 1100000000 ∧ k.Clear 1100000000 1100000000 := by
    rw [← pool]
    exact ⟨by decide, _, rfl, by decide, by decide, by decide⟩
  obtain ⟨window, k, keys, obstacle, clear⟩ := state
  have here : p.keys[0]? = some k := by
    rw [keys]
    rfl
  rw [← window] at obstacle clear
  refine ⟨0, k, _, ⟨here, fun _ => List.not_mem_nil⟩, obstacle, ?_, window ▸ clear,
    fun inside => absurd inside List.not_mem_nil⟩
  intro j k' v other obstacle'
  have member := List.mem_of_getElem? other.1
  rw [keys] at member
  obtain rfl := List.mem_singleton.mp member
  exact (Option.some.inj (obstacle.symm.trans obstacle')).le

theorem wait_suffices_for_window :
    ∃ lease, ((((ofTests ["key"] []).after [.tryAcquire 0 []]).tryAcquire 500000000 []).1.tryAcquire
      1100000000 []).2 = .ok lease := by
  have ordered : InOrder ((ofTests ["key"] []).leases [.tryAcquire 0 []]) := by
    unfold InOrder
    decide
  exact (wait_suffices_iff _ _ _ [.tryAcquire 0 []] 500000000 [] 1100000000 ordered
    (.inl (by decide))).mpr window_is_last

/-- Two requests a second are learned, then one: a send is over at the instant named, and the other
    still fills the window. -/
def loweredLimit : List Call :=
  [.tryAcquire 0 [], .record 1 0 (.response 200 (some { limit := { second := some 2 } }) none),
    .tryAcquire 500000000 [],
    .record 500000001 0 (.response 200 (some { limit := { second := some 1 } }) none)]

theorem wait_too_short :
    InOrder ((ofTests ["key"] []).leases loweredLimit) ∧
      ((ofTests ["key"] []).after loweredLimit).Names 600000000 [] 1100000000 ∧
      ¬ ∃ lease, ((((ofTests ["key"] []).after loweredLimit).tryAcquire 600000000 []).1.tryAcquire
        1100000000 []).2 = .ok lease := by
  refine ⟨by unfold InOrder; decide, .inl (by decide), ?_⟩
  rintro ⟨lease, success⟩
  have refused : ((((ofTests ["key"] []).after loweredLimit).tryAcquire 600000000 []).1.tryAcquire
      1100000000 []).2 = .error (.at 1600000000) := by decide
  rw [refused] at success
  cases success

end Pool

end BraveRotator
