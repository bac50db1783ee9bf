import BraveRotator.Key.Quota
import BraveRotator.Key.Waiting

namespace BraveRotator

namespace KeyState

/-- The fields in which looking at a key may leave it different. -/
structure Drift where
  health : Health
  holdUntil : Option Instant
  sends : List Instant
  monthRemaining : Option Nat
  monthResetAt : Option Instant

def drift (k : KeyState) (d : Drift) : KeyState :=
  { k with
    health := d.health, holdUntil := d.holdUntil, sends := d.sends
    monthRemaining := d.monthRemaining, monthResetAt := d.monthResetAt }

section Drift

variable (k : KeyState) (d : Drift) (now : Instant)

theorem drift_learnLimits (rl : RateLimitInfo) :
    ∃ d', (k.drift d).learnLimits now rl = (k.learnLimits now rl).drift d' := by
  rw [learnLimits_eq, learnLimits_eq]
  exact ⟨{ d with
    monthRemaining := rl.remaining.month.or d.monthRemaining
    monthResetAt := (rl.monthReset.map (now + ·)).or d.monthResetAt }, rfl⟩

theorem drift_noteResponse (status : Nat) (rl : Option RateLimitInfo) :
    ∃ d', (k.drift d).noteResponse now status rl = (k.noteResponse now status rl).drift d' := by
  cases rl with
  | none => exact ⟨d, rfl⟩
  | some rl =>
    exact drift_learnLimits { k with stats := { k.stats with lastStatus := some status } } d now rl

theorem drift_exhaust (resetIn : Option Duration) :
    ∃ d', (k.drift d).exhaust now resetIn = (k.exhaust now resetIn).drift d' :=
  ⟨{ d with
    health := .exhausted (now + resetIn.getD exhaustedFallback), monthRemaining := some 0
    monthResetAt := some (now + resetIn.getD exhaustedFallback) }, rfl⟩

theorem drift_disable (base max : Duration) (reason : String) :
    ∃ d', (k.drift d).disable now base max reason = (k.disable now base max reason).drift d' :=
  ⟨{ d with health := (k.disable now base max reason).health }, rfl⟩

theorem drift_fail (what : String) :
    ∃ d', (k.drift d).fail now what = (k.fail now what).drift d' := by
  unfold fail drift
  dsimp only
  split
  · exact drift_disable { k with
      consecutiveFailures := wrapU32 (k.consecutiveFailures + 1) } d now _ _ _
  · exact ⟨d, rfl⟩

theorem drift_recordSuccess (rl : Option RateLimitInfo) :
    ∃ d', (k.drift d).recordSuccess now rl = (k.recordSuccess now rl).drift d' := by
  have noted : (k.drift d).noteSuccess now = (k.noteSuccess now).drift d := by
    unfold noteSuccess drift
    dsimp only
    split <;> rfl
  have cap : ((k.noteSuccess now).drift d).overrideCapExhausted =
      (k.noteSuccess now).overrideCapExhausted := by
    rw [overrideCapExhausted_eq, overrideCapExhausted_eq]
    rfl
  unfold recordSuccess
  rw [noted]
  dsimp only
  rw [cap]
  split
  · exact drift_exhaust _ d now _
  · split
    · exact drift_exhaust _ d now _
    · exact ⟨d, rfl⟩

theorem drift_recordTooMany (rl : Option RateLimitInfo) (detail : String) :
    ∃ d', (k.drift d).recordTooMany now rl detail = (k.recordTooMany now rl detail).drift d' := by
  let counted : KeyState := { k with
    stats := { k.stats with
      upstream429 := k.stats.upstream429 + 1, lastError := some s!"HTTP 429{detail}" }
    consecutive429 := wrapU32 (k.consecutive429 + 1) }
  unfold recordTooMany
  cases rl with
  | some r =>
    dsimp only
    split
    · exact drift_exhaust counted d now r.monthReset
    · exact ⟨{ d with holdUntil := some (now + r.secondWait) }, rfl⟩
  | none =>
    let held : Drift := { d with holdUntil := some (now + 2 * braveWindow) }
    unfold drift
    dsimp only
    split
    · exact drift_disable counted held now _ _ _
    · exact ⟨held, rfl⟩

/-- What recording an outcome makes of the rest of the key does not depend on those fields. -/
theorem drift_digest (o : Outcome) :
    ∃ d', ((k.drift d).digest now o).1 = (k.digest now o).1.drift d' := by
  cases o with
  | transport err =>
    exact drift_fail { k with stats := { k.stats with
      transportErrors := k.stats.transportErrors + 1, lastStatus := none
      lastError := some err } } d now _
  | response status rl bodySnippet =>
    obtain ⟨d', noted⟩ := drift_noteResponse k d now status rl
    simp only [digest]
    rw [noted]
    generalize k.noteResponse now status rl = k
    split
    · exact drift_recordSuccess k d' now rl
    split
    · exact drift_recordTooMany k d' now rl _
    split
    · exact drift_disable { k with stats := { k.stats with
        client4xx := k.stats.client4xx + 1, lastError := some _ } } d' now _ _ _
    split
    · exact ⟨d', rfl⟩
    split
    · exact drift_fail { k with stats := { k.stats with
        server5xx := k.stats.server5xx + 1, lastError := some _ } } d' now _
    · exact ⟨d', rfl⟩

end Drift

/-- `k'` differs from `k` by looks at `now` or before, which later calls do not notice. -/
structure Alike (now : Instant) (window : Duration) (k k' : KeyState) : Prop where
  rest : ∃ d, k' = k.drift d
  health : k'.health.parkedUntil? = k.health.parkedUntil? ∨ k.Healthy now ∧ k'.Healthy now
  hold : k'.holdUntil = k.holdUntil ∨ ¬ k.Held now ∧ ¬ k'.Held now
  sends : ∀ later, now ≤ later →
    (k'.pruneWindow later window).sends = (k.pruneWindow later window).sends
  unused : k.lastUsed = none → k'.health = k.health ∧ k'.monthRemaining = k.monthRemaining

section Alike

variable {now t : Instant} {window : Duration} {k k' k'' : KeyState}

theorem Alike.refl (now : Instant) (window : Duration) (k : KeyState) : k.Alike now window k :=
  ⟨⟨⟨k.health, k.holdUntil, k.sends, k.monthRemaining, k.monthResetAt⟩, rfl⟩, .inl rfl, .inl rfl,
    fun _ _ => rfl, fun _ => ⟨rfl, rfl⟩⟩

theorem Alike.lastUsed (alike : k.Alike now window k') : k'.lastUsed = k.lastUsed := by
  obtain ⟨d, rfl⟩ := alike.rest
  rfl

theorem Alike.symm (alike : k.Alike now window k') : k'.Alike now window k := by
  refine ⟨?_, ?_, ?_, fun later le => (alike.sends later le).symm, ?_⟩
  · obtain ⟨d, rfl⟩ := alike.rest
    exact ⟨⟨k.health, k.holdUntil, k.sends, k.monthRemaining, k.monthResetAt⟩, rfl⟩
  · exact alike.health.imp Eq.symm And.symm
  · exact alike.hold.imp Eq.symm And.symm
  · intro unused
    obtain ⟨health, remaining⟩ := alike.unused (alike.lastUsed ▸ unused)
    exact ⟨health.symm, remaining.symm⟩

theorem Alike.healthy_iff (alike : k.Alike now window k') (le : now ≤ t) :
    k'.Healthy t ↔ k.Healthy t := by
  rcases alike.health with same | ⟨healthy, healthy'⟩
  · unfold Healthy
    rw [same]
  · exact iff_of_true (healthy'.later le) (healthy.later le)

theorem Held.earlier (held : k.Held t) (le : now ≤ t) : k.Held now := by
  obtain ⟨h, hold, ahead⟩ := held
  exact ⟨h, hold, le.trans_lt ahead⟩

theorem Alike.held_iff (alike : k.Alike now window k') (le : now ≤ t) :
    k'.Held t ↔ k.Held t := by
  rcases alike.hold with same | ⟨free, free'⟩
  · unfold Held
    rw [same]
  · exact iff_of_false (fun held => free' (held.earlier le)) (fun held => free (held.earlier le))

theorem Alike.trans (first : k.Alike now window k') (second : k'.Alike now window k'') :
    k.Alike now window k'' := by
  refine ⟨?_, ?_, ?_, fun later le => (second.sends later le).trans (first.sends later le), ?_⟩
  · obtain ⟨d, rfl⟩ := first.rest
    obtain ⟨d', rfl⟩ := second.rest
    exact ⟨d', rfl⟩
  · rcases second.health with same | ⟨healthy', healthy''⟩
    · rcases first.health with same' | ⟨healthy, healthy'⟩
      · exact .inl (same.trans same')
      · refine .inr ⟨healthy, ?_⟩
        unfold Healthy
        rw [same]
        exact healthy'
    · exact .inr ⟨(first.healthy_iff le_rfl).mp healthy', healthy''⟩
  · rcases second.hold with same | ⟨free', free''⟩
    · rcases first.hold with same' | ⟨free, free'⟩
      · exact .inl (same.trans same')
      · refine .inr ⟨free, ?_⟩
        unfold Held
        rw [same]
        exact free'
    · exact .inr ⟨fun held => free' ((first.held_iff le_rfl).mpr held), free''⟩
  · intro unused
    obtain ⟨health, remaining⟩ := first.unused unused
    obtain ⟨health', remaining'⟩ := second.unused (first.lastUsed.trans unused)
    exact ⟨health'.trans health, remaining'.trans remaining⟩

theorem Alike.later (alike : k.Alike now window k') (le : now ≤ t) :
    k.Alike t window k' := by
  refine ⟨alike.rest, ?_, ?_, fun later after => alike.sends later (le.trans after), alike.unused⟩
  · exact alike.health.imp_right fun healthy => ⟨healthy.1.later le, healthy.2.later le⟩
  · exact alike.hold.imp_right fun free =>
      ⟨fun held => free.1 (held.earlier le), fun held => free.2 (held.earlier le)⟩

theorem alike_refresh (unused : k.lastUsed = none → k.health = .ok) (now : Instant)
    (window : Duration) : k.Alike now window (k.refresh now) := by
  refine ⟨?_, ?_, .inl (k.refresh_holdUntil now), ?_, ?_⟩
  · obtain ⟨health, monthRemaining, monthResetAt, same⟩ := k.refresh_fields now
    exact ⟨⟨health, k.holdUntil, k.sends, monthRemaining, monthResetAt⟩, same⟩
  · by_cases healthy : k.Healthy now
    · refine .inr ⟨healthy, ?_⟩
      intro u parked
      rw [k.refresh_of_healthy now healthy] at parked
      cases parked
    · exact .inl (by rw [k.refresh_of_parked now healthy])
  · intro later _
    simp only [pruneWindow, refresh_sends]
  · intro none
    rw [refresh_of_ok (unused none) now]
    exact ⟨rfl, rfl⟩

theorem alike_availability (k : KeyState) (now : Instant) (window : Duration) :
    k.Alike now window (k.availability now window).1 := by
  rcases k.availability_cases now window with ⟨_, _, same⟩ | ⟨_, _, _, _, same⟩ | ⟨ok, free, same⟩
  · rw [same]
    exact .refl now window k
  · rw [same]
    exact .refl now window k
  · have swept : (k.availability now window).1 =
        { k with holdUntil := none, sends := (k.pruneWindow now window).sends } := by
      rw [same]
      rfl
    rw [swept]
    refine ⟨⟨⟨k.health, none, (k.pruneWindow now window).sends, k.monthRemaining, k.monthResetAt⟩,
      rfl⟩, .inl rfl, .inr ⟨free, ?_⟩, ?_, fun _ => ⟨rfl, rfl⟩⟩
    · rintro ⟨h, held, -⟩
      cases held
    · intro later le
      have pruned := congrArg KeyState.sends (k.pruneWindow_pruneWindow window le)
      exact pruned

theorem alike_tidied (unused : k.lastUsed = none → k.health = .ok)
    (tidied : k.Tidied now window k') : k.Alike now window k' := by
  rcases tidied with rfl | rfl
  · exact alike_refresh unused now window
  · exact (alike_refresh unused now window).trans (alike_availability _ now window)

theorem Alike.digest (alike : k.Alike now window k') (used : k.lastUsed ≠ none) (o : Outcome) :
    (k.digest now o).1.Alike now window (k'.digest now o).1 := by
  have effect := k.digest_effect now o
  have effect' := k'.digest_effect now o
  have health := k.digest_health now o
  have health' := k'.digest_health now o
  have lastUsed : (k.digest now o).1.lastUsed = k.lastUsed := congrArg Fixed.lastUsed effect.fixed
  have sends : (k.digest now o).1.sends = k.sends := congrArg Fixed.sends effect.fixed
  have sends' : (k'.digest now o).1.sends = k'.sends := congrArg Fixed.sends effect'.fixed
  have park : k'.parkFor o = k.parkFor o := by
    obtain ⟨d, rfl⟩ := alike.rest
    cases o <;> rfl
  refine ⟨?_, ?_, ?_, ?_, fun unused => absurd (lastUsed ▸ unused) used⟩
  · obtain ⟨d, rfl⟩ := alike.rest
    exact drift_digest k d now o
  · rw [park] at health'
    rcases health.cases with ⟨parks, same⟩ | ⟨length, _, parks, same⟩ | ⟨length, parks, same⟩
    · rw [parks] at health'
      have same' : (k'.digest now o).1.health = k'.health := health'
      unfold Healthy
      rw [same, same']
      exact alike.health
    · rw [parks] at health'
      obtain ⟨_, same'⟩ := health'
      exact .inl (by rw [same, same']; rfl)
    · rw [parks] at health'
      exact .inl (congrArg Health.parkedUntil? (health'.trans same.symm))
  · rw [effect.holdUntil, effect'.holdUntil]
    unfold Held
    rw [effect.holdUntil, effect'.holdUntil]
    cases o.slowDown? with
    | some wait => exact .inl rfl
    | none => exact alike.hold
  · intro later le
    have before := alike.sends later le
    simp only [pruneWindow, sends, sends'] at before ⊢
    exact before

theorem Alike.grant (alike : k.Alike now window k')
    (free : ((k.refresh now).availability now window).2 = .ok ())
    (free' : ((k'.refresh now).availability now window).2 = .ok ()) :
    (((k.refresh now).availability now window).1.grant now).Alike now window
      (((k'.refresh now).availability now window).1.grant now) := by
  have sends : ∀ k : KeyState, ((k.refresh now).pruneWindow now window).sends =
      (k.pruneWindow now window).sends := by
    intro k
    simp only [pruneWindow, refresh_sends]
  have ok := (availability_ok_iff.mp free).1
  have ok' := (availability_ok_iff.mp free').1
  rw [availability_of_ok free, availability_of_ok free']
  refine ⟨?_, ?_, .inl rfl, ?_, fun unused => by cases unused⟩
  · obtain ⟨d, rfl⟩ := alike.rest
    obtain ⟨_, _, _, same⟩ := k.refresh_fields now
    obtain ⟨h, r, a, same'⟩ := (k.drift d).refresh_fields now
    rw [same, same']
    exact ⟨⟨h, none, _, r, a⟩, rfl⟩
  · refine .inl ?_
    show (k'.refresh now).health.parkedUntil? = (k.refresh now).health.parkedUntil?
    rw [ok, ok']
  · intro later _
    have same := alike.sends now le_rfl
    rw [← sends k, ← sends k'] at same
    show (List.dropWhile _ (((k'.refresh now).pruneWindow now window).sends ++ [now])) =
      List.dropWhile _ (((k.refresh now).pruneWindow now window).sends ++ [now])
    rw [same]

theorem windowAvailability_congr (sends : (k'.pruneWindow now window).sends =
    (k.pruneWindow now window).sends) (secLimit : k'.secLimit = k.secLimit) :
    (k'.windowAvailability now window).2 = (k.windowAvailability now window).2 := by
  have limit : (k'.pruneWindow now window).secLimit = (k.pruneWindow now window).secLimit := secLimit
  unfold windowAvailability
  dsimp only
  rw [sends, limit]

/-- What a look finds, told from the three things that can be in the way. -/
theorem look_snd (k : KeyState) (now : Instant) (window : Duration) :
    (k.look now window).2 =
      match k.health.parkedUntil?.filter (now < ·), k.holdUntil.filter (now < ·) with
      | some u, _ => .error u
      | none, some h => .error h
      | none, none => (k.windowAvailability now window).2 := by
  unfold look
  by_cases healthy : k.Healthy now
  · have past : k.health.parkedUntil?.filter (now < ·) = none := by
      rw [Option.filter_eq_none_iff]
      intro u parked ahead
      exact absurd (healthy u parked) (Nat.not_le.mpr (of_decide_eq_true ahead))
    have hold := k.refresh_holdUntil now
    rw [past]
    unfold availability
    rw [k.refresh_of_healthy now healthy, hold]
    dsimp only
    cases k.holdUntil.filter (now < ·) with
    | some h => rfl
    | none =>
      refine windowAvailability_congr ?_ (k.refresh_secLimit now)
      simp only [pruneWindow, refresh_sends]
  · obtain ⟨u, parked, ahead⟩ : ∃ u, k.health.parkedUntil? = some u ∧ ¬ u ≤ now := by
      simpa [Healthy] using healthy
    have kept : k.health.parkedUntil?.filter (now < ·) = some u := by
      rw [parked, Option.filter_some, if_pos (decide_eq_true (Nat.lt_of_not_le ahead))]
    rw [k.refresh_of_parked now healthy, k.availability_of_parked now window parked, kept]

theorem Alike.look (alike : k.Alike now window k') (le : now ≤ t) :
    (k'.look t window).2 = (k.look t window).2 := by
  have secLimit : k'.secLimit = k.secLimit := by
    obtain ⟨d, rfl⟩ := alike.rest
    rfl
  have parked : k'.health.parkedUntil?.filter (t < ·) = k.health.parkedUntil?.filter (t < ·) := by
    rcases alike.health with same | ⟨healthy, healthy'⟩
    · rw [same]
    · have past : ∀ k : KeyState, k.Healthy now → k.health.parkedUntil?.filter (t < ·) = none := by
        intro k healthy
        rw [Option.filter_eq_none_iff]
        intro u parked ahead
        exact absurd (healthy.later le u parked) (Nat.not_le.mpr (of_decide_eq_true ahead))
      rw [past k healthy, past k' healthy']
  have held : k'.holdUntil.filter (t < ·) = k.holdUntil.filter (t < ·) := by
    rcases alike.hold with same | ⟨free, free'⟩
    · rw [same]
    · have past : ∀ k : KeyState, ¬ k.Held now → k.holdUntil.filter (t < ·) = none := by
        intro k free
        rw [Option.filter_eq_none_iff]
        intro h hold ahead
        exact free ⟨h, hold, le.trans_lt (of_decide_eq_true ahead)⟩
      rw [past k free, past k' free']
  rw [look_snd, look_snd, parked, held, windowAvailability_congr (alike.sends t le) secLimit]

/-- The scores can differ in the quota of keys that have been used only. -/
theorem Alike.score (alike : k.Alike now window k') (unused : k.lastUsed = none → k.health = .ok) :
    (k'.refresh t).lastUsed = (k.refresh t).lastUsed ∧
      (k.lastUsed = none → (k'.refresh t).score = (k.refresh t).score) := by
  constructor
  · rw [refresh_lastUsed, refresh_lastUsed, alike.lastUsed]
  · intro none
    obtain ⟨health, remaining⟩ := alike.unused none
    have ok := unused none
    rw [refresh_of_ok ok t, refresh_of_ok (health.trans ok) t]
    obtain ⟨d, rfl⟩ := alike.rest
    have same : d.monthRemaining = k.monthRemaining := remaining
    have rank : (k.drift d).monthRemainingForRanking = k.monthRemainingForRanking := by
      unfold monthRemainingForRanking effectiveMonthUsed monthUnlimited drift
      rw [same]
    show toLex ((k.lastUsed : WithBot Instant), OrderDual.toDual _) = _
    rw [rank]
    rfl

end Alike

end KeyState

end BraveRotator
