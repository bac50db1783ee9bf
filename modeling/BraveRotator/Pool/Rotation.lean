import BraveRotator.Lib.Rotation
import BraveRotator.Pool.Window

namespace BraveRotator

namespace KeyState

/-- The key remembers when it was leased last, and only grants are in its deque. -/
structure Remembers (history : List Instant) (k : KeyState) : Prop extends k.Orderly where
  lastUsed : k.lastUsed = history.getLast?
  sends : ∀ t ∈ k.sends, t ∈ history

variable {window : Duration} {history : List Instant} {k k' : KeyState}

theorem Remembers.congr (remembers : k.Remembers history) (orderly : k'.Orderly)
    (lastUsed : k'.lastUsed = k.lastUsed) (sends : k'.sends.Sublist k.sends) :
    k'.Remembers history :=
  ⟨orderly, lastUsed.trans remembers.lastUsed,
    fun t member => remembers.sends t (sends.subset member)⟩

theorem Remembers.change {i : Nat} {c : Call} {leased : Option Nat}
    (remembers : k.Remembers history) (positive : 0 < window)
    (past : leased = some i → ∀ t ∈ history, t ≤ c.time)
    (change : k.Change window i c leased k') :
    k'.Remembers (history ++ if leased = some i then [c.time] else []) := by
  cases change with
  | digested now o =>
    rw [if_neg (by simp), List.append_nil]
    have lastUsed := congrArg Fixed.lastUsed (k.digest_effect now o).fixed
    exact remembers.congr (remembers.toOrderly.digested now o) lastUsed
      (k.digest_sends now o ▸ List.Sublist.refl _)
  | bystander now j o other =>
    rw [if_neg (by simp), List.append_nil]
    exact remembers
  | granted now exclude free =>
    rw [if_pos rfl]
    have earlier : ∀ t ∈ k.sends, t ≤ now := fun t member => past rfl t (remembers.sends t member)
    refine ⟨remembers.toOrderly.granted positive earlier free, ?_, ?_⟩
    · rw [List.getLast?_concat]
      rfl
    · rw [granted_sends free]
      intro t member
      rcases List.mem_append.mp member with member | member
      · exact List.mem_append_left _ (remembers.sends t (pruneWindow_sublist.subset member))
      · exact List.mem_append_right _ member
  | tidied _ _ _ passive other tidied =>
    rw [if_neg other, List.append_nil]
    refine remembers.congr (remembers.toOrderly.tidied tidied) ?_ ?_
    · rcases tidied with rfl | rfl <;> simp
    · rcases tidied with rfl | rfl
      · rw [refresh_sends]
      · rcases (k.refresh c.time).availability_sends c.time window
          with same | same
        · rw [same, refresh_sends]
        · rw [same]
          exact pruneWindow_sublist.trans (by rw [refresh_sends])

end KeyState

namespace Pool

def Increasing (leases : List (Nat × Instant)) : Prop := leases.Pairwise fun a b => a.2 < b.2

theorem Increasing.before {as bs : List (Nat × Instant)} (increasing : Increasing (as ++ bs)) :
    Increasing as := (List.pairwise_append.mp increasing).1

/-- Under the turnstile, no lease is given at an earlier instant than the one before it. -/
def InOrder (leases : List (Nat × Instant)) : Prop := leases.Pairwise fun a b => a.2 ≤ b.2

theorem Increasing.inOrder {leases : List (Nat × Instant)} (increasing : Increasing leases) :
    InOrder leases := List.Pairwise.imp Nat.le_of_lt increasing

theorem remembers_run (host : Host) (tokens : List String) (cfg : PoolConfig) {cs : List Call}
    (ordered : InOrder ((new host tokens cfg).leases cs)) :
    ∀ (i : Nat) (k : KeyState), ((new host tokens cfg).after cs).keys[i]? = some k →
      k.Remembers ((new host tokens cfg).grants i cs) := by
  let Remembered (history : List (Nat × Instant)) (p : Pool) : Prop :=
    ∀ (i : Nat) (k : KeyState), p.keys[i]? = some k → k.Remembers (timesOf i history)
  have keep : ∀ history (p : Pool) c, Remembered history p →
      InOrder (history ++ ((p.leased c).map (·, c.time)).toList) →
      Remembered (history ++ ((p.leased c).map (·, c.time)).toList) (p.step c) := by
    intro history p c remembered ordered i k' there
    obtain ⟨k, here, change⟩ := p.step_key_inv there
    rw [timesOf_append, timesOf_leased]
    refine (remembered i k here).change p.window_pos ?_ change
    intro leased t member
    rw [leased] at ordered
    have across := (List.pairwise_append.mp ordered).2.2
    exact across (i, t) (mem_timesOf.mp member) (i, c.time) (List.mem_singleton.mpr rfl)
  have start : Remembered [] (new host tokens cfg) := by
    intro i k here
    have orderly := new_orderly host tokens cfg here
    obtain ⟨token, rfl⟩ := new_key host tokens cfg here
    exact ⟨orderly, rfl, by simp [KeyState.new]⟩
  exact Runs.collected_invariant (fun as bs good => (List.pairwise_append.mp good).1) keep start ordered

/-- Key `i` may be leased by the call: it is asked for, not excluded and eligible. -/
def Offers (p : Pool) (c : Call) (i : Nat) : Prop :=
  ∃ now exclude k, c = .tryAcquire now exclude ∧ i ∉ exclude ∧ p.keys[i]? = some k ∧
    k.Eligible now p.window

/-- The key that a call leases was used no later than any other it could have leased. -/
theorem leased_least {p : Pool} {c : Call} {a b : Nat} {kb : KeyState}
    (leased : p.leased c = some a) (here : p.keys[b]? = some kb) (orderly : kb.Orderly)
    (offers : p.Offers c b) :
    ∃ ka, p.keys[a]? = some ka ∧
      ∀ t, ka.lastUsed = some t → ∃ u, kb.lastUsed = some u ∧ t ≤ u := by
  obtain ⟨now, exclude, ka, rfl, first, -, -, least⟩ := leased_cases _ leased
  obtain ⟨_, _, k, same, allowed, there, eligible⟩ := offers
  cases same
  obtain rfl : k = kb := Option.some.inj (there.symm.trans here)
  have scored : (b, (k.refresh now).score) ∈ p.freeScores now exclude :=
    (p.mem_freeScores now exclude).mpr
      ⟨k.refresh now, (p.mem_candidates now exclude).mpr ⟨⟨k, here, rfl⟩, fun _ => allowed⟩,
        (orderly.free_iff p.window_pos).mpr eligible, rfl⟩
  have used := Prod.Lex.monotone_fst _ _ (least b _ scored)
  refine ⟨ka, first, ?_⟩
  intro t last
  simp only [KeyState.score, KeyState.refresh_lastUsed, last] at used
  exact WithBot.coe_le_iff.mp used

theorem leases_cons_of_leased {p : Pool} {before : List Call} {c : Call} {a : Nat}
    (leased : (p.after before).leased c = some a) (after : List Call) :
    p.leases (before ++ c :: after) =
      p.leases before ++ (a, c.time) :: (p.after (before ++ [c])).leases after := by
  have read : ((p.after before).leased c).map (·, c.time) = some (a, c.time) := by
    rw [leased]
    rfl
  rw [after_concat, leases, Runs.collect_append, Runs.collect_cons]
  exact congrArg _ (congrArg (·.toList ++ _) read)

theorem turns_eq (p : Pool) (cs : List Call) : p.turns cs = (p.leases cs).map Prod.fst := by
  rw [leases, Runs.collect_map, turns]
  congr 1
  funext p c
  cases p.leased c <;> rfl

/-- The call `c₁` leases key `a`, and `c₂` is the next one to do so. -/
structure LeasedNext (p : Pool) (before : List Call) (c₁ : Call) (between : List Call) (c₂ : Call)
    (a : Nat) : Prop where
  first : (p.after before).leased c₁ = some a
  next : (p.after (before ++ c₁ :: between)).leased c₂ = some a
  fresh : a ∉ (p.after (before ++ [c₁])).turns between

/-- Every other key that the second call could have leased has had a turn. -/
theorem LeasedNext.turn_between {p : Pool} {before between : List Call} {c₁ c₂ : Call} {a b : Nat}
    (leased : p.LeasedNext before c₁ between c₂ a)
    (remembers : ∀ (i : Nat) (k : KeyState), (p.after (before ++ c₁ :: between)).keys[i]? = some k →
      k.Remembers (p.grants i (before ++ c₁ :: between)))
    (increasing : Increasing (p.leases (before ++ c₁ :: between))) (other : b ≠ a)
    (offers : (p.after (before ++ c₁ :: between)).Offers c₂ b) :
    ∃ t, (b, t) ∈ (p.after (before ++ [c₁])).leases between ∧ c₁.time < t := by
  have split := leases_cons_of_leased leased.first between
  obtain ⟨-, -, kb, -, -, there, -⟩ := id offers
  obtain ⟨ka, here, least⟩ := leased_least leased.next there (remembers b kb there).toOrderly offers
  have last : ka.lastUsed = some c₁.time := by
    have none : timesOf a ((p.after (before ++ [c₁])).leases between) = [] := by
      rw [timesOf, List.map_eq_nil_iff, List.filter_eq_nil_iff]
      intro entry member same
      have turn : entry.1 ∈ (p.after (before ++ [c₁])).turns between := by
        rw [turns_eq]
        exact List.mem_map_of_mem member
      exact leased.fresh (by simpa [of_decide_eq_true same] using turn)
    rw [(remembers a ka here).lastUsed, grants, split, timesOf_append, timesOf_cons_self, none,
      List.getLast?_concat]
  obtain ⟨u, used, le⟩ := least _ last
  have member : (b, u) ∈ p.leases (before ++ c₁ :: between) := by
    rw [(remembers b kb there).lastUsed] at used
    exact mem_timesOf.mp (List.mem_of_getLast? used)
  rw [split] at member increasing
  have ordered := List.pairwise_append.mp increasing
  have inside : (b, u) ∈ (p.after (before ++ [c₁])).leases between := by
    rcases List.mem_append.mp member with early | late
    · have lt : u < c₁.time := ordered.2.2 _ early _ List.mem_cons_self
      exact absurd lt (Nat.not_lt.mpr le)
    · rcases List.mem_cons.mp late with same | late
      · exact absurd (congrArg Prod.fst same) other
      · exact late
  exact ⟨u, inside, (List.pairwise_cons.mp ordered.2.1).1 _ inside⟩

section New

variable (host : Host) (tokens : List String) (cfg : PoolConfig)

theorem new_turn_between {before between after : List Call} {c₁ c₂ : Call} {a b : Nat}
    (increasing : Increasing ((new host tokens cfg).leases (before ++ c₁ :: (between ++ c₂ :: after))))
    (leased : (new host tokens cfg).LeasedNext before c₁ between c₂ a) (other : b ≠ a)
    (offers : ((new host tokens cfg).after (before ++ c₁ :: between)).Offers c₂ b) :
    ∃ t, (b, t) ∈ ((new host tokens cfg).after (before ++ [c₁])).leases between ∧
      c₁.time < t ∧ t < c₂.time := by
  have regroup : before ++ c₁ :: (between ++ c₂ :: after) =
      (before ++ c₁ :: between) ++ c₂ :: after := by simp
  rw [regroup, leases_cons_of_leased leased.next after] at increasing
  have remembers := remembers_run host tokens cfg increasing.before.inOrder
  obtain ⟨t, inside, later⟩ := leased.turn_between remembers increasing.before other offers
  refine ⟨t, inside, later, ?_⟩
  have member : (b, t) ∈ (new host tokens cfg).leases (before ++ c₁ :: between) := by
    rw [leases_cons_of_leased leased.first between]
    exact List.mem_append_right _ (List.mem_cons_of_mem _ inside)
  exact (List.pairwise_append.mp increasing).2.2 _ member _ List.mem_cons_self

/-- While all of `members` stay on offer, they are leased in turn. -/
theorem new_spread {before stretch after : List Call} {members : Finset Nat}
    (increasing : Increasing ((new host tokens cfg).leases (before ++ (stretch ++ after))))
    (offered : Runs.Along step (fun p c => p.leased c ≠ none → ∀ b ∈ members, p.Offers c b)
      ((new host tokens cfg).after before) stretch) :
    Rotation.Spread members (((new host tokens cfg).after before).turns stretch) := by
  intro pre a mid post split fresh b member other
  obtain ⟨s₁, c₁, rest, rfl, -, first, tail⟩ := Runs.collect_split split
  obtain ⟨s₂, c₂, rest, rfl, turns, next, -⟩ := Runs.collect_split tail
  have reach (cs : List Call) : Runs.exec step ((new host tokens cfg).after before) cs =
      (new host tokens cfg).after (before ++ cs) := ((new host tokens cfg).after_append ..).symm
  have second : Runs.exec step (step (Runs.exec step ((new host tokens cfg).after before) s₁) c₁) s₂ =
      (new host tokens cfg).after (before ++ s₁ ++ c₁ :: s₂) := by
    rw [List.append_assoc, ← reach, Runs.exec_append]
    rfl
  have offers := Runs.along_iff_split.mp offered (s₁ ++ c₁ :: s₂) c₂ rest (by simp)
  rw [reach, ← List.append_assoc] at offers
  rw [second] at next
  rw [reach] at first turns
  rw [← after_concat] at turns
  subst turns
  have leased : (new host tokens cfg).LeasedNext (before ++ s₁) c₁ s₂ c₂ a := ⟨first, next, fresh⟩
  have regroup : before ++ (s₁ ++ c₁ :: (s₂ ++ c₂ :: rest) ++ after) =
      before ++ s₁ ++ c₁ :: (s₂ ++ c₂ :: (rest ++ after)) := by simp
  rw [regroup] at increasing
  have granting : ((new host tokens cfg).after (before ++ s₁ ++ c₁ :: s₂)).leased c₂ ≠ none := by
    rw [next]
    exact Option.some_ne_none a
  obtain ⟨t, inside, -⟩ :=
    new_turn_between host tokens cfg increasing leased other (offers granting b member)
  have turn : b ∈ ((new host tokens cfg).after (before ++ s₁ ++ [c₁])).turns s₂ := by
    rw [turns_eq]
    exact List.mem_map_of_mem inside
  exact turn

/-- Fair rotation: in a run whose grants come at increasing instants, a key is not leased again before
    every other key that could have been leased then; keys that stay on offer take turns. -/
theorem fair_rotation (cs : List Call) (increasing : Increasing ((new host tokens cfg).leases cs)) :
    (∀ before c₁ between c₂ after a b, cs = before ++ c₁ :: (between ++ c₂ :: after) →
      (new host tokens cfg).LeasedNext before c₁ between c₂ a → b ≠ a →
      ((new host tokens cfg).after (before ++ c₁ :: between)).Offers c₂ b →
      ∃ t, (b, t) ∈ ((new host tokens cfg).after (before ++ [c₁])).leases between ∧
        c₁.time < t ∧ t < c₂.time) ∧
    (∀ before stretch after (members : Finset Nat), cs = before ++ (stretch ++ after) →
      Runs.Along step (fun p c => p.leased c ≠ none → ∀ b ∈ members, p.Offers c b)
        ((new host tokens cfg).after before) stretch →
      (((new host tokens cfg).after before).turns stretch).length ≤ members.card →
      (((new host tokens cfg).after before).turns stretch).Nodup) := by
  constructor
  · rintro before c₁ between c₂ after a b rfl leased other offers
    exact new_turn_between host tokens cfg increasing leased other offers
  · rintro before stretch after members rfl offered few
    exact (new_spread host tokens cfg increasing offered).nodup few

end New

theorem second_key_has_turn :
    ∃ t, (1, t) ∈ ((ofTests ["first", "second"] []).after [.tryAcquire 0 []]).leases
        [.tryAcquire 1 []] ∧ 0 < t ∧ t < 2000000000 := by
  have increasing : Increasing ((ofTests ["first", "second"] []).leases
      [.tryAcquire 0 [], .tryAcquire 1 [], .tryAcquire 2000000000 []]) := by
    unfold Increasing
    decide
  have offers : ((ofTests ["first", "second"] []).after
      [.tryAcquire 0 [], .tryAcquire 1 []]).Offers (.tryAcquire 2000000000 []) 1 :=
    ⟨_, _, (((ofTests ["first", "second"] []).after
      [.tryAcquire 0 [], .tryAcquire 1 []]).keys[1]?).get (by decide), rfl, by decide,
      (Option.some_get _).symm, by decide⟩
  exact (fair_rotation _ _ _ _ increasing).1 [] (.tryAcquire 0 []) [.tryAcquire 1 []]
    (.tryAcquire 2000000000 []) [] 0 1 rfl ⟨by decide, by decide, by decide⟩ (by decide) offers

end Pool

end BraveRotator
