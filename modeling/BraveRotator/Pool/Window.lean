import BraveRotator.Key.Effects
import BraveRotator.Pool.Step

namespace BraveRotator

open SlidingWindow

namespace KeyState

/-- The deque is sorted, the rate is positive and no cast to `u32` truncates. -/
structure Orderly (k : KeyState) : Prop where
  sorted : k.sends.Pairwise (· ≤ ·)
  length : k.sends.length ≤ u32Max
  positive : 1 ≤ k.secLimit
  bounded : k.secLimit ≤ u32Max

section Orderly

variable {window : Duration} {now : Instant} {k k' : KeyState}

theorem Orderly.congr (orderly : k.Orderly) (sends : k'.sends = k.sends)
    (secLimit : k'.secLimit = k.secLimit) : k'.Orderly :=
  ⟨sends ▸ orderly.sorted, sends ▸ orderly.length, secLimit ▸ orderly.positive,
    secLimit ▸ orderly.bounded⟩

theorem Orderly.refresh (orderly : k.Orderly) (now : Instant) : (k.refresh now).Orderly :=
  orderly.congr (k.refresh_sends now) (k.refresh_secLimit now)

theorem pruneWindow_sublist : (k.pruneWindow now window).sends.Sublist k.sends :=
  List.dropWhile_sublist _

theorem Orderly.prune (orderly : k.Orderly) (now : Instant) (window : Duration) :
    (k.pruneWindow now window).Orderly :=
  ⟨orderly.sorted.sublist pruneWindow_sublist, pruneWindow_sublist.length_le.trans orderly.length,
    orderly.positive, orderly.bounded⟩

theorem Orderly.pruned_length (orderly : k.Orderly) (positive : 0 < window) :
    wrapU32 (k.pruneWindow now window).sends.length = recent window now k.sends := by
  have untruncated : wrapU32 (k.pruneWindow now window).sends.length =
      (k.pruneWindow now window).sends.length :=
    Nat.mod_eq_of_lt (Nat.lt_succ_of_le (orderly.prune now window).length)
  rw [untruncated, pruneWindow_sends positive, recent_eq_length orderly.sorted]

/-- `availability` lets a refreshed key through when it is eligible, as the rules have it. -/
theorem Orderly.free_iff (orderly : k.Orderly) (positive : 0 < window) :
    ((k.refresh now).availability now window).2 = .ok () ↔ k.Eligible now window := by
  have least : max k.secLimit 1 = k.secLimit := max_eq_left orderly.positive
  rw [availability_ok_iff, (orderly.refresh now).pruned_length positive, refresh_secLimit,
    refresh_ok_iff, refresh_sends, least]
  simp only [Held, refresh_holdUntil]
  exact ⟨fun free => ⟨free.1, free.2.1, free.2.2⟩,
    fun eligible => ⟨eligible.healthy, eligible.free, eligible.room⟩⟩

theorem Orderly.tidied (orderly : k.Orderly) (tidied : k.Tidied now window k') : k'.Orderly := by
  rcases tidied with rfl | rfl
  · exact orderly.refresh now
  · rcases (k.refresh now).availability_sends now window with same | same
    · exact (orderly.refresh now).congr same (availability_secLimit ..)
    · exact ((orderly.refresh now).prune now window).congr same (availability_secLimit ..)

theorem digest_sends (k : KeyState) (now : Instant) (o : Outcome) :
    (k.digest now o).1.sends = k.sends := congrArg Fixed.sends (k.digest_effect now o).fixed

theorem Orderly.digested (orderly : k.Orderly) (now : Instant) (o : Outcome) :
    (k.digest now o).1.Orderly := by
  have sends := k.digest_sends now o
  have limits : 1 ≤ (k.digest now o).1.secLimit ∧ (k.digest now o).1.secLimit ≤ u32Max := by
    rw [(k.digest_effect now o).secLimit]
    cases learned : o.learned? with
    | none => exact ⟨orderly.positive, orderly.bounded⟩
    | some l =>
      obtain ⟨positive, le⟩ := Outcome.learned?_bounds learned
      exact ⟨positive, le.trans (by decide)⟩
  exact ⟨sends ▸ orderly.sorted, sends ▸ orderly.length, limits.1, limits.2⟩

theorem granted_sends (free : ((k.refresh now).availability now window).2 = .ok ()) :
    (((k.refresh now).availability now window).1.grant now).sends =
      (k.pruneWindow now window).sends ++ [now] := by
  rw [availability_of_ok free]
  simp only [grant, pruneWindow, refresh_sends]

theorem Orderly.granted (orderly : k.Orderly) (positive : 0 < window)
    (past : ∀ t ∈ k.sends, t ≤ now)
    (free : ((k.refresh now).availability now window).2 = .ok ()) :
    (((k.refresh now).availability now window).1.grant now).Orderly := by
  have pruned := orderly.prune now window
  have sends := granted_sends free
  have secLimit : (((k.refresh now).availability now window).1.grant now).secLimit = k.secLimit :=
    (availability_secLimit ..).trans (k.refresh_secLimit now)
  have room := ((orderly.free_iff positive).mp free).room
  refine ⟨?_, ?_, secLimit ▸ orderly.positive, secLimit ▸ orderly.bounded⟩
  · rw [sends, List.pairwise_append]
    refine ⟨pruned.sorted, List.pairwise_singleton _ _, ?_⟩
    intro t member last same
    rw [List.mem_singleton.mp same]
    exact past t (pruneWindow_sublist.subset member)
  · rw [sends, List.length_append, List.length_singleton, pruneWindow_sends positive,
      ← recent_eq_length orderly.sorted]
    exact (Nat.succ_le_of_lt room).trans orderly.bounded

end Orderly

structure Windowed (window : Duration) (history : List Instant) (now : Instant) (k : KeyState) :
    Prop extends k.Orderly where
  tracks : Tracks window now history k.sends

section Windowed

variable {window : Duration} {history : List Instant} {now t : Instant} {k k' : KeyState}

theorem Windowed.advance (windowed : k.Windowed window history now) (le : now ≤ t) :
    k.Windowed window history t :=
  { windowed with tracks := windowed.tracks.advance le }

theorem Windowed.tidied (windowed : k.Windowed window history now) (positive : 0 < window)
    (tidied : k.Tidied now window k') : k'.Windowed window history now := by
  refine ⟨windowed.toOrderly.tidied tidied, ?_⟩
  rcases tidied with rfl | rfl
  · rw [refresh_sends]
    exact windowed.tracks
  · rcases (k.refresh now).availability_sends now window with same | same
    · rw [same, refresh_sends]
      exact windowed.tracks
    · rw [same, pruneWindow_sends positive, refresh_sends]
      exact windowed.tracks.prune

theorem Windowed.granted (windowed : k.Windowed window history now) (positive : 0 < window)
    (free : ((k.refresh now).availability now window).2 = .ok ()) :
    (((k.refresh now).availability now window).1.grant now).Windowed window
      (history ++ [now]) now := by
  refine ⟨windowed.toOrderly.granted positive windowed.tracks.past free, ?_⟩
  rw [granted_sends free, pruneWindow_sends positive]
  exact windowed.tracks.prune.push

/-- Every call keeps the account, and writes the grants into it. -/
theorem Windowed.change {i : Nat} {c : Call} {leased : Option Nat}
    (windowed : k.Windowed window history now) (positive : 0 < window) (le : now ≤ c.time)
    (change : k.Change window i c leased k') :
    k'.Windowed window (history ++ if leased = some i then [c.time] else []) c.time := by
  have current := windowed.advance le
  cases change with
  | digested now o =>
    rw [if_neg (by simp), List.append_nil]
    exact ⟨current.toOrderly.digested now o, k.digest_sends now o ▸ current.tracks⟩
  | bystander now j o other =>
    rw [if_neg (by simp), List.append_nil]
    exact current
  | granted now exclude free =>
    rw [if_pos rfl]
    exact current.granted positive free
  | tidied _ _ _ passive other tidied =>
    rw [if_neg other, List.append_nil]
    exact current.tidied positive tidied

end Windowed

end KeyState

theorem timesOf_append (i : Nat) (as bs : List (Nat × Instant)) :
    timesOf i (as ++ bs) = timesOf i as ++ timesOf i bs := by
  rw [timesOf, List.filter_append, List.map_append]
  rfl

theorem timesOf_cons_self (i : Nat) (t : Instant) (leases : List (Nat × Instant)) :
    timesOf i ((i, t) :: leases) = t :: timesOf i leases := by
  simp [timesOf]

theorem mem_timesOf {i : Nat} {t : Instant} {leases : List (Nat × Instant)} :
    t ∈ timesOf i leases ↔ (i, t) ∈ leases := by
  simp [timesOf]

namespace Pool

theorem timesOf_leased (p : Pool) (c : Call) (i : Nat) :
    timesOf i ((p.leased c).map (·, c.time)).toList =
      if p.leased c = some i then [c.time] else [] := by
  cases p.leased c with
  | none => rfl
  | some j => by_cases same : j = i <;> simp [timesOf, same]

variable (host : Host) (tokens : List String) (cfg : PoolConfig)

theorem new_orderly {i : Nat} {k : KeyState} (here : (new host tokens cfg).keys[i]? = some k) :
    k.Orderly := by
  obtain ⟨token, rfl⟩ := new_key host tokens cfg here
  exact ⟨.nil, Nat.zero_le _, le_max_right _ _, max_le cfg.defaultRps_le (by decide)⟩

/-- The run lemma: after any run, the deque of a key accounts for all grants of the run. -/
theorem windowed_run {cs : List Call} (ordered : Runs.Ordered Call.time 0 cs) :
    ∀ (i : Nat) (k : KeyState), ((new host tokens cfg).after cs).keys[i]? = some k →
      k.Windowed (new host tokens cfg).window ((new host tokens cfg).grants i cs)
        (Runs.clock Call.time 0 cs) := by
  let Accounts (history : List (Nat × Instant)) (now : Instant) (p : Pool) : Prop :=
    p.window = (new host tokens cfg).window ∧
      ∀ (i : Nat) (k : KeyState), p.keys[i]? = some k → k.Windowed p.window (timesOf i history) now
  have keep : ∀ history now (p : Pool) c, Accounts history now p → now ≤ c.time → True →
      Accounts (history ++ ((p.leased c).map (·, c.time)).toList) c.time (p.step c) := by
    rintro history now p c ⟨window, accounts⟩ le -
    refine ⟨(p.step_window c).trans window, ?_⟩
    intro i k' there
    obtain ⟨k, here, change⟩ := p.step_key_inv there
    rw [step_window, timesOf_append, timesOf_leased]
    exact (accounts i k here).change p.window_pos le change
  have start : Accounts [] 0 (new host tokens cfg) :=
    ⟨rfl, fun i k here => by
      have orderly := new_orderly host tokens cfg here
      obtain ⟨token, rfl⟩ := new_key host tokens cfg here
      exact ⟨orderly, .nil _ _⟩⟩
  have final := Runs.history_invariant keep start ordered
    (Runs.along_of_forall (fun _ _ => trivial) _ cs)
  intro i k here
  have windowed := final.2 i k here
  rw [final.1] at windowed
  exact windowed

/-- Sliding-window safety: with the clock never going back, a grant of key `i` is at most the
    `secLimit`-th within the window that ends at it. -/
theorem grants_within_limit {cs : List Call} {c : Call} {i : Nat} {k : KeyState}
    (ordered : Runs.Ordered Call.time 0 (cs ++ [c]))
    (here : ((new host tokens cfg).after cs).keys[i]? = some k) :
    1 ≤ k.secLimit ∧
      (((new host tokens cfg).after cs).leased c = some i →
        recent (new host tokens cfg).window c.time ((new host tokens cfg).grants i (cs ++ [c])) ≤
          k.secLimit) := by
  obtain ⟨past, le, -⟩ := (Runs.ordered_append Call.time 0 cs [c]).mp ordered
  have windowed := windowed_run host tokens cfg past i k here
  refine ⟨windowed.positive, ?_⟩
  intro leased
  have positive := (new host tokens cfg).window_pos
  have current := windowed.advance le
  have room : recent (new host tokens cfg).window c.time ((new host tokens cfg).grants i cs) <
      k.secLimit := by
    obtain ⟨now, exclude, k', rfl, there, -, free, -⟩ := leased_cases _ leased
    obtain rfl : k' = k := Option.some.inj (there.symm.trans here)
    rw [after_window] at free
    rw [current.tracks.recent_live]
    exact ((current.toOrderly.free_iff positive).mp free).room
  have added : (new host tokens cfg).grants i (cs ++ [c]) =
      (new host tokens cfg).grants i cs ++ [c.time] := by
    rw [grants, leases, Runs.collect_append, timesOf_append, Runs.collect_cons, Runs.collect_nil,
      List.append_nil]
    exact congrArg _ ((timesOf_leased _ c i).trans (if_pos leased))
  rw [added, recent_concat _ _ _ (Nat.lt_add_of_pos_right positive)]
  exact room

theorem grants_within_learned_limit :
    ∃ k, ((ofTests ["key"] []).after
        [.tryAcquire 0 [], .record 10 0 (.response 200 (some { limit := { second := some 2 } }) none)]
        ).keys[0]? = some k ∧
      recent 1100000000 500000000 ((ofTests ["key"] []).grants 0
        [.tryAcquire 0 [], .record 10 0 (.response 200 (some { limit := { second := some 2 } }) none),
          .tryAcquire 500000000 []]) ≤ k.secLimit := by
  obtain ⟨k, here⟩ := Option.isSome_iff_exists.mp (by decide : (((ofTests ["key"] []).after
    [.tryAcquire 0 [], .record 10 0 (.response 200 (some { limit := { second := some 2 } }) none)]
    ).keys[0]?).isSome = true)
  have ordered : Runs.Ordered Call.time 0 ([.tryAcquire 0 [],
    .record 10 0 (.response 200 (some { limit := { second := some 2 } }) none)] ++
    [.tryAcquire 500000000 []]) := by decide
  exact ⟨k, here, (grants_within_limit _ _ _ ordered here).2 (by decide)⟩

end Pool

end BraveRotator
