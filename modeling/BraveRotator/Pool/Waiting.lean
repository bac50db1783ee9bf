import BraveRotator.Lib.WaitLoop
import BraveRotator.Key.Waiting
import BraveRotator.Model.Acquire
import BraveRotator.Pool.TryAcquire

namespace BraveRotator

/-- What a key shows: the key after the look, and whether it may be leased. -/
abbrev Shown := KeyState × Except Instant Unit

section Answer

variable (exclude : List Nat)

def freeShown (entry : Nat × Shown) : Option (Nat × Score) :=
  match entry.2.2 with
  | .ok () => some (entry.1, entry.2.1.score)
  | .error _ => none

def blockedShown (entry : Nat × Shown) : Option Instant :=
  match entry.2.2 with
  | .ok () => none
  | .error u => some u

/-- What a call looks at: the keys that are not excluded, or all of them when none of those is
    healthy. -/
def seen (shown : List Shown) : List (Nat × Shown) :=
  visited exclude ((visited exclude true 0 shown).any (·.2.1.health.isOk)) 0 shown

/-- What a call answers, told from what the keys show. -/
def answer (shown : List Shown) : WaitLoop.Reply Lease Unit :=
  match ((seen exclude shown).filterMap freeShown).argmin (·.2) with
  | some (i, _) =>
    match shown[i]? with
    | some (k, _) => .done (k.lease i)
    | none => .stuck ()
  | none =>
    match (seen exclude shown).any (·.2.1.health.isOk),
        ((seen exclude shown).filterMap blockedShown).min? with
    | true, some u => .retryAt u
    | _, _ => .stuck ()

end Answer

namespace Pool

variable (p : Pool) (now : Instant) (exclude : List Nat)

def view : List Shown := p.keys.map (KeyState.look · now p.window)

def reply : Except Next Lease → WaitLoop.Reply Lease Unit
  | .ok lease => .done lease
  | .error (.at u) => .retryAt u
  | .error (.unavailable _ _) => .stuck ()

theorem view_eq :
    p.view now = (p.keys.map (KeyState.refresh · now)).map (KeyState.availability · now p.window) := by
  rw [view, List.map_map]
  rfl

theorem spares_view :
    p.spares now exclude = (visited exclude true 0 (p.view now)).any (·.2.1.health.isOk) := by
  rw [view_eq, visited_map, List.any_map, spares]
  congr 1
  funext entry
  simp only [Function.comp_apply, Prod.map_snd, KeyState.availability_health]

theorem seen_view :
    seen exclude (p.view now) =
      (p.candidates now exclude).map (Prod.map id (KeyState.availability · now p.window)) := by
  rw [seen, ← spares_view, view_eq, visited_map, candidates]

theorem freeScores_view :
    p.freeScores now exclude = (seen exclude (p.view now)).filterMap freeShown := by
  have shown : free? now p.window =
      freeShown ∘ Prod.map id (KeyState.availability · now p.window) := by
    funext entry
    have score := entry.2.availability_score now p.window
    unfold free? freeShown
    rw [Function.comp_apply, Prod.map_snd, Prod.map_fst, score]
    rfl
  rw [seen_view, List.filterMap_map, freeScores, shown]

theorem blocked_view :
    (p.candidates now exclude).filterMap (blocked? now p.window) =
      (seen exclude (p.view now)).filterMap blockedShown := by
  rw [seen_view, List.filterMap_map]
  rfl

theorem healthy_view :
    (p.candidates now exclude).any (·.2.health.isOk) =
      (seen exclude (p.view now)).any (·.2.1.health.isOk) := by
  rw [seen_view, List.any_map]
  congr 1
  funext entry
  simp only [Function.comp_apply, Prod.map_snd, KeyState.availability_health]

theorem noneFree_of_sick (sick : ∀ i k, (i, k) ∈ p.candidates now exclude → k.health ≠ .ok) :
    p.freeScores now exclude = [] := by
  rw [List.eq_nil_iff_forall_not_mem]
  rintro ⟨i, score⟩ member
  obtain ⟨k, candidate, free, -⟩ := (p.mem_freeScores now exclude).mp member
  exact sick i k candidate (KeyState.availability_ok_iff.mp free).1

/-- A call answers by what the keys show, and nothing else. -/
theorem reply_eq_answer : reply (p.tryAcquire now exclude).2 = answer exclude (p.view now) := by
  have cases := p.tryAcquire_cases now exclude
  generalize p.tryAcquire now exclude = result at cases
  unfold answer
  rw [← freeScores_view, ← blocked_view, ← healthy_view]
  cases cases with
  | leased i k here candidate free best =>
    have shown : (p.view now)[i]? = some (k.look now p.window) := by
      rw [view, List.getElem?_map, here, Option.map_some]
    simp only [best, shown]
    exact congrArg _ (KeyState.lease_of_tidied (.inr rfl) i).symm
  | waits u noneFree least healthy =>
    obtain ⟨i, k, member, ok⟩ := healthy
    have any : (p.candidates now exclude).any (·.2.health.isOk) = true :=
      List.any_eq_true.mpr ⟨(i, k), member, Health.isOk_iff.mpr ok⟩
    simp only [noneFree, List.argmin_nil, any, least]
    rfl
  | unavailable summary sick =>
    have none : (p.candidates now exclude).any (·.2.health.isOk) = false := by
      rw [List.any_eq_false]
      intro entry member ok
      exact sick entry.1 entry.2 member (Health.isOk_iff.mp ok)
    simp only [p.noneFree_of_sick now exclude sick, List.argmin_nil, none]
    rfl

/-- `p'` shows what `p` does from `t` on. -/
def SameView (t : Instant) (p p' : Pool) : Prop :=
  p'.window = p.window ∧ ∀ now, t ≤ now → p'.view now = p.view now

theorem SameView.trans {t : Instant} {p p' p'' : Pool} (first : SameView t p p')
    (second : SameView t p' p'') : SameView t p p'' :=
  ⟨second.1.trans first.1, fun now le => (second.2 now le).trans (first.2 now le)⟩

/-- One turn of the loop in `acquire`. -/
def attempt (exclude : List Nat) (p : Pool) (now : Instant) : Pool × WaitLoop.Reply Lease Unit :=
  ((p.tryAcquire now exclude).1, reply (p.tryAcquire now exclude).2)

variable {p now exclude} {u : Instant}

theorem waits_of_retryAt (refused : (p.attempt exclude now).2 = .retryAt u) :
    (p.attempt exclude now).1.keys = p.keys.mapIdx (p.settle now exclude) ∧
      (p.attempt exclude now).1.window = p.window ∧
      p.freeScores now exclude = [] ∧
      ((p.candidates now exclude).filterMap (blocked? now p.window)).min? = some u := by
  have cases := p.tryAcquire_cases now exclude
  unfold attempt at refused ⊢
  generalize p.tryAcquire now exclude = result at cases refused ⊢
  cases cases with
  | leased i k here candidate free best => cases refused
  | waits u' noneFree least healthy =>
    cases refused
    exact ⟨rfl, rfl, noneFree, least⟩
  | unavailable summary sick => cases refused

/-- Where no key is free, every key that the call looked at is blocked until the least instant. -/
theorem blocked_of_least (noneFree : p.freeScores now exclude = [])
    (least : ((p.candidates now exclude).filterMap (blocked? now p.window)).min? = some u) {i : Nat}
    {k : KeyState} (here : p.keys[i]? = some k)
    (candidate : p.spares now exclude = true → i ∉ exclude) :
    ∃ v, (k.look now p.window).2 = .error v ∧ u ≤ v := by
  have member : (i, k.refresh now) ∈ p.candidates now exclude :=
    (p.mem_candidates now exclude).mpr ⟨⟨k, here, rfl⟩, candidate⟩
  cases shown : (k.look now p.window).2 with
  | ok =>
    have free : (i, (k.refresh now).score) ∈ p.freeScores now exclude :=
      (p.mem_freeScores now exclude).mpr ⟨_, member, shown, rfl⟩
    rw [noneFree] at free
    cases free
  | error v =>
    have blocked : v ∈ (p.candidates now exclude).filterMap (blocked? now p.window) :=
      List.mem_filterMap.mpr ⟨_, member, blocked?_eq_some.mpr shown⟩
    exact ⟨v, rfl, (List.min?_eq_some_iff.mp least).2 v blocked⟩

theorem attempt_future (refused : (p.attempt exclude now).2 = .retryAt u) : now < u := by
  obtain ⟨-, -, -, least⟩ := waits_of_retryAt refused
  have blocked := (List.min?_eq_some_iff.mp least).1
  obtain ⟨⟨i, k⟩, member, named⟩ := List.mem_filterMap.mp blocked
  obtain ⟨⟨k₀, -, rfl⟩, -⟩ := (p.mem_candidates now exclude).mp member
  exact KeyState.look_future (blocked?_eq_some.mp named)

theorem spares_later {later : Instant} (le : now ≤ later) (spares : p.spares now exclude = true) :
    p.spares later exclude = true := by
  obtain ⟨i, k, here, fresh, healthy⟩ := (p.spares_iff now exclude).mp spares
  exact (p.spares_iff later exclude).mpr ⟨i, k, here, fresh, healthy.later le⟩

/-- Nothing can be leased before the instant named with a refusal: the keys that a later call looks
    at are among those seen before, since keys only become healthy while waiting. -/
theorem attempt_noneBefore (refused : (p.attempt exclude now).2 = .retryAt u) :
    WaitLoop.NoneBefore (attempt exclude) p now u := by
  intro earlier lease le lt succeeds
  have cases := p.tryAcquire_cases earlier exclude
  unfold attempt at succeeds
  generalize p.tryAcquire earlier exclude = result at cases succeeds
  cases cases with
  | leased i k here candidate free best =>
    have seenBefore : p.spares now exclude = true → i ∉ exclude :=
      fun spares => candidate (spares_later le spares)
    obtain ⟨-, -, noneFree, least⟩ := waits_of_retryAt refused
    obtain ⟨v, blocked, later⟩ := blocked_of_least noneFree least here seenBefore
    exact KeyState.look_refused p.window_pos blocked le (lt.trans_le later) free
  | waits u' noneFree least healthy => cases succeeds
  | unavailable summary sick => cases succeeds

theorem sameView_of_settled {p' : Pool} (keys : p'.keys = p.keys.mapIdx (p.settle now exclude))
    (window : p'.window = p.window) : SameView now p p' := by
  refine ⟨window, ?_⟩
  intro later le
  rw [view, view, keys, window]
  apply List.ext_getElem?
  intro i
  simp only [List.getElem?_map, List.getElem?_mapIdx, Option.map_map]
  cases p.keys[i]? with
  | none => rfl
  | some k => exact congrArg some (KeyState.look_of_tidied (p.settle_tidied now exclude i k) le)

/-- A refused call changes nothing that a later one could notice. -/
theorem attempt_sameView (refused : (p.attempt exclude now).2 = .retryAt u) :
    SameView now p (p.attempt exclude now).1 := by
  obtain ⟨keys, window, -, -⟩ := waits_of_retryAt refused
  exact sameView_of_settled keys window

/-- What a call that leases a key leaves: the key as the call has seen it, granted, and the others. -/
theorem view_leased {lease : Lease} (success : (p.tryAcquire now exclude).2 = .ok lease)
    {later : Instant} (le : now ≤ later) (j : Nat) :
    ((p.tryAcquire now exclude).1.view later)[j]? =
      if j = lease.idx then
        ((p.view now)[j]?).map fun shown => (shown.1.grant now).look later p.window
      else (p.view later)[j]? := by
  have cases := p.tryAcquire_cases now exclude
  generalize p.tryAcquire now exclude = result at cases success
  cases cases with
  | leased i k here candidate free best =>
    cases success
    have idx : (k.lease i).idx = i := rfl
    rw [view, view, view, List.getElem?_map, List.getElem?_map, List.getElem?_map, idx]
    dsimp only
    by_cases own : j = i
    · subst own
      have inside : j < (p.keys.mapIdx (p.settle now exclude)).length := by
        rw [List.length_mapIdx]
        exact (List.getElem?_eq_some_iff.mp here).1
      rw [if_pos rfl, List.getElem?_set_self inside, here, settle_of_candidate _ _ _ candidate]
      rfl
    · rw [if_neg own, List.getElem?_set_ne (Ne.symm own), List.getElem?_mapIdx]
      cases p.keys[j]? with
      | none => rfl
      | some k' => exact congrArg some (KeyState.look_of_tidied (p.settle_tidied now exclude j k') le)
  | waits u noneFree least healthy => cases success
  | unavailable summary sick => cases success

theorem tryAcquire_window (p : Pool) (now : Instant) (exclude : List Nat) :
    (p.tryAcquire now exclude).1.window = p.window := by
  have cases := p.tryAcquire_cases now exclude
  generalize p.tryAcquire now exclude = result at cases
  cases cases <;> rfl

/-- Pools that show the same lease the same key, and show the same afterwards. -/
theorem SameView.leased {p' : Pool} (same : SameView now p p') {lease : Lease}
    (success : (p.tryAcquire now exclude).2 = .ok lease) :
    SameView now (p.tryAcquire now exclude).1 (p'.tryAcquire now exclude).1 := by
  have replies : reply (p'.tryAcquire now exclude).2 = .done lease := by
    rw [reply_eq_answer, same.2 now le_rfl, ← reply_eq_answer, success]
    rfl
  have success' : (p'.tryAcquire now exclude).2 = .ok lease := by
    rcases result : (p'.tryAcquire now exclude).2 with (u | ⟨earliest, summary⟩) | lease'
    · simp [result, reply] at replies
    · simp [result, reply] at replies
    · simpa [result, reply] using replies
  refine ⟨by rw [tryAcquire_window, tryAcquire_window, same.1], fun later le => ?_⟩
  apply List.ext_getElem?
  intro j
  rw [view_leased success le, view_leased success' le, same.1, same.2 now le_rfl, same.2 later le]

theorem attempt_sound (exclude : List Nat) : WaitLoop.Sound (attempt exclude) SameView where
  reply same := by
    unfold attempt
    rw [reply_eq_answer, reply_eq_answer, same.2 _ (Nat.le_refl _)]
  refused same refused := by
    have lt := attempt_future refused
    have next := attempt_sameView refused
    exact ⟨next.1.trans same.1, fun later le =>
      (next.2 later (lt.le.trans le)).trans (same.2 later (lt.le.trans le))⟩
  future := attempt_future
  earliest := attempt_noneBefore

section Live

theorem healthy_of_usable (usable : (p.attempt exclude now).2 ≠ .stuck ()) :
    ∃ (i : Nat) (k : KeyState), p.keys[i]? = some k ∧ k.Healthy now := by
  have cases := p.tryAcquire_cases now exclude
  unfold attempt at usable
  generalize p.tryAcquire now exclude = result at cases usable
  cases cases with
  | leased i k here candidate free best =>
    exact ⟨i, k, here, (k.refresh_ok_iff now).mp (KeyState.availability_ok_iff.mp free).1⟩
  | waits u noneFree least healthy =>
    obtain ⟨i, k, member, ok⟩ := healthy
    obtain ⟨⟨k₀, here, rfl⟩, -⟩ := (p.mem_candidates now exclude).mp member
    exact ⟨i, k₀, here, (k₀.refresh_ok_iff now).mp ok⟩
  | unavailable summary sick => exact absurd rfl usable

theorem usable_of_healthy {i : Nat} {k : KeyState} (here : p.keys[i]? = some k)
    (healthy : k.Healthy now) : (p.attempt exclude now).2 ≠ .stuck () := by
  intro stuck
  have cases := p.tryAcquire_cases now exclude
  unfold attempt at stuck
  generalize p.tryAcquire now exclude = result at cases stuck
  cases cases with
  | leased j k' there candidate free best => cases stuck
  | waits u noneFree least healthy' => cases stuck
  | unavailable summary sick => exact p.parked_of_sick now exclude sick here healthy

theorem usable_later (usable : (p.attempt exclude now).2 ≠ .stuck ()) :
    ∀ later, now ≤ later → ∀ b, (p.attempt exclude later).2 ≠ .stuck b := by
  intro later le b
  obtain ⟨i, k, here, healthy⟩ := healthy_of_usable usable
  exact usable_of_healthy here (healthy.later le)

end Live

def finish (t : Instant) : WaitLoop.Ending Lease Unit → Except AcquireError Lease
  | .done lease => .ok lease
  | .late u => .error (.saturated (saturatingDurationSince u t))
  | .stuck _ => .error (.unavailable none "")

theorem acquire_of_loop {deadline : Instant} {fuel : Nat} {p' : Pool} {t : Nat}
    {ending : WaitLoop.Ending Lease Unit}
    (ends : WaitLoop.loop (attempt exclude) deadline fuel p now = some (p', t, ending))
    (live : ending ≠ .stuck ()) :
    p.acquire deadline exclude fuel now = some (p', t, finish t ending) := by
  induction fuel generalizing p now with
  | zero => cases ends
  | succ fuel ih =>
    simp only [WaitLoop.loop, attempt] at ends
    unfold acquire
    rcases tried : p.tryAcquire now exclude with ⟨q, (u | ⟨earliest, summary⟩) | lease⟩
    · simp only [tried, reply] at ends ⊢
      split at ends
      · rename_i past
        cases ends
        rw [if_pos past]
        rfl
      · rename_i waits
        rw [if_neg waits]
        exact ih ends
    · simp only [tried, reply] at ends
      cases ends
      exact absurd rfl live
    · simp only [tried, reply] at ends
      cases ends
      rfl

/-- `acquire` ends, with the lease of the earliest instant at which there is one before the deadline,
    and otherwise as saturated. It leaves what the one call of `try_acquire` that got the lease would
    have left, or what it found. -/
theorem acquire_earliest (p : Pool) (start deadline : Instant) (exclude : List Nat)
    (usable : ∀ earliest summary,
      (p.tryAcquire start exclude).2 ≠ .error (.unavailable earliest summary)) :
    ∃ enough p' t result,
      (∀ fuel, enough ≤ fuel → p.acquire deadline exclude fuel start = some (p', t, result)) ∧
      ((∃ lease, result = .ok lease ∧ (p.tryAcquire t exclude).2 = .ok lease ∧
          start ≤ t ∧ (t = start ∨ t ≤ deadline) ∧ SameView t (p.tryAcquire t exclude).1 p' ∧
          ∀ earlier lease', start ≤ earlier → earlier < t →
            (p.tryAcquire earlier exclude).2 ≠ .ok lease') ∨
        (∃ retryAfter, result = .error (.saturated retryAfter) ∧ SameView t p p' ∧
          ∀ later lease, start ≤ later → (later = start ∨ later ≤ deadline) →
            (p.tryAcquire later exclude).2 ≠ .ok lease)) := by
  have live : (p.attempt exclude start).2 ≠ .stuck () := by
    unfold attempt
    rcases result : (p.tryAcquire start exclude).2 with (u | ⟨earliest, summary⟩) | lease
    · simp [reply]
    · exact absurd result (usable earliest summary)
    · simp [reply]
  obtain ⟨enough, last, t, ending, ends, same, earliest⟩ :=
    (attempt_sound exclude).loop_earliest deadline (usable_later live) ⟨rfl, fun _ _ => rfl⟩
  have done_of_ok {t : Instant} {lease : Lease} (success : (p.tryAcquire t exclude).2 = .ok lease) :
      (p.attempt exclude t).2 = .done lease := by
    rw [attempt, success, reply]
  have finished (notStuck : ending ≠ .stuck ()) : ∀ fuel, enough ≤ fuel →
      p.acquire deadline exclude fuel start = some ((last.tryAcquire t exclude).1, t, finish t ending) :=
    fun fuel le => acquire_of_loop (WaitLoop.loop_mono ends fuel le) notStuck
  cases ending with
  | done lease =>
    obtain ⟨success, le, inTime, none⟩ := earliest
    have leased : (p.tryAcquire t exclude).2 = .ok lease := by
      rcases result : (p.tryAcquire t exclude).2 with (u | ⟨e, summary⟩) | lease'
      · simp [attempt, result, reply] at success
      · simp [attempt, result, reply] at success
      · simpa [attempt, result, reply] using success
    refine ⟨enough, _, t, .ok lease, finished (by simp),
      .inl ⟨lease, rfl, leased, le, inTime, same.leased leased, ?_⟩⟩
    · intro earlier lease' after before success'
      exact none earlier lease' after before (done_of_ok success')
  | late u =>
    obtain ⟨le, lt, past, none⟩ := earliest
    refine ⟨enough, _, t, .error (.saturated (saturatingDurationSince u t)), finished (by simp),
      .inr ⟨_, rfl, ?_, ?_⟩⟩
    · cases reply : (attempt exclude last t).2 with
      | retryAt v => exact same.trans (attempt_sameView reply)
      | done lease =>
        rw [(attempt_sound exclude).reply same] at reply
        exact absurd reply (none t lease le lt)
      | stuck b =>
        rw [(attempt_sound exclude).reply same] at reply
        exact absurd reply (usable_later live t le b)
    intro later lease after inTime success
    have before : later < u := by
      rcases inTime with rfl | le'
      · exact le.trans_lt lt
      · exact le'.trans_lt past
    exact none later lease after before (done_of_ok success)
  | stuck b => exact earliest.elim

theorem acquire_next_slot :
    ∃ enough p' t lease, ∀ fuel, enough ≤ fuel →
      ((ofTests ["key"] []).after [.tryAcquire 0 []]).acquire 2000000000 [] fuel 500000000 =
        some (p', t, .ok lease) := by
  have usable : ∀ earliest summary,
      (((ofTests ["key"] []).after [.tryAcquire 0 []]).tryAcquire 500000000 []).2 ≠
        .error (.unavailable earliest summary) := by
    intro earliest summary same
    have waits : (((ofTests ["key"] []).after [.tryAcquire 0 []]).tryAcquire 500000000 []).2 =
        .error (.at 1100000000) := by decide
    rw [waits] at same
    cases same
  have slot : (((ofTests ["key"] []).after [.tryAcquire 0 []]).tryAcquire 1100000000 []).2 =
      .ok { idx := 0, token := "key", label := "k1:..key" } := by decide
  obtain ⟨enough, p', t, result, ends, found⟩ := acquire_earliest _ 500000000 2000000000 [] usable
  rcases found with ⟨lease, rfl, -⟩ | ⟨_, -, -, none⟩
  · exact ⟨enough, p', t, lease, ends⟩
  · exact absurd slot (none 1100000000 _ (by decide) (.inr (by decide)))

end Pool

end BraveRotator
