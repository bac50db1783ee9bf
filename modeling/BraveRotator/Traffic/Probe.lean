import BraveRotator.Pool.Window
import BraveRotator.Traffic.Step

namespace BraveRotator

namespace Traffic

/-- After the run, a probe of key `i` is out: the first lease since the key was disabled has not been
    answered. -/
def ProbeOut (i : Nat) (t : Traffic) (seen : List Event) : Prop :=
  ∃ before gap probe between k u reason, seen = before ++ (gap ++ probe :: between) ∧
    (t.after before).key? i = some k ∧ k.health = .disabled u reason ∧
    Runs.Along step (fun t e => t.leased e ≠ some i) (t.after before) gap ∧
    (t.after (before ++ gap)).leased probe = some i ∧
    ∀ now o, .answer now (t.after (before ++ gap)).issued o ∉ between

/-- While a probe of key `i` is out, no other lease of the key is granted. -/
def ProbedAlone (i : Nat) (t : Traffic) (es : List Event) : Prop :=
  ∀ seen e rest, es = seen ++ e :: rest → ProbeOut i t seen → (t.after seen).leased e ≠ some i

/-- Whoever asks while a probe of key `i` is out finds the key parked, held or at its rate. -/
def KeptBusy (i : Nat) (t : Traffic) (es : List Event) : Prop :=
  ∀ seen now exclude rest k, es = seen ++ .acquire now exclude :: rest → ProbeOut i t seen →
    (t.after seen).key? i = some k → ¬ k.Eligible now t.pool.window

/-- The run up to one of its requests, which may exclude other keys than it did. -/
def Reasked (es es' : List Event) : Prop :=
  ∃ seen now exclude exclude' rest, es = seen ++ .acquire now exclude :: rest ∧
    es' = seen ++ [.acquire now exclude']

theorem acquire_of_leased {t : Traffic} {e : Event} {i : Nat} (leased : t.leased e = some i) :
    ∃ now exclude, e = .acquire now exclude := by
  cases e with
  | acquire now exclude => exact ⟨now, exclude, rfl⟩
  | answer now id o => simp at leased
  | observe now => simp at leased

section New

variable (host : Host) (tokens : List String) (cfg : PoolConfig) {i : Nat}

theorem new_free_iff {es : List Event} (ordered : Runs.Ordered Event.time 0 es) {k : KeyState}
    (here : ((new host tokens cfg).after es).key? i = some k) (now : Instant) :
    ((k.refresh now).availability now ((new host tokens cfg).after es).pool.window).2 = .ok () ↔
      k.Eligible now (new host tokens cfg).pool.window := by
  rw [key?, after_pool] at here
  have windowed := Pool.windowed_run host tokens cfg (calls_ordered _ ordered) i k here
  rw [after_pool, Pool.after_window]
  exact windowed.toOrderly.free_iff (Pool.window_pos _)

/-- A recovering key is probed by one request at a time, whatever keys the others exclude, exactly when
    whoever asks meanwhile finds the key busy. -/
theorem probed_alone_iff {es : List Event} (ordered : Runs.Ordered Event.time 0 es) :
    (∀ es', Reasked es es' → ProbedAlone i (new host tokens cfg) es') ↔
      KeptBusy i (new host tokens cfg) es := by
  constructor
  · rintro alone seen now exclude rest k rfl out here eligible
    have past := ((Runs.ordered_append Event.time 0 seen _).mp ordered).1
    have free := (new_free_iff host tokens cfg past here now).mpr eligible
    obtain ⟨exclude', leased⟩ := Pool.leased_of_free _ here free
    exact alone _ ⟨seen, now, exclude, exclude', rest, rfl, rfl⟩ seen (.acquire now exclude') [] rfl out
      leased
  · rintro busy es' ⟨asked, now, exclude, exclude', after, rfl, rfl⟩ seen e rest split out leased
    obtain ⟨now', exclude₁, rfl⟩ := acquire_of_leased leased
    have found : ∃ exclude₀ rest', asked ++ .acquire now exclude :: after =
        seen ++ .acquire now' exclude₀ :: rest' := by
      rcases List.eq_nil_or_concat' rest with rfl | ⟨rest', last, rfl⟩
      · obtain ⟨rfl, same⟩ := List.append_inj' split rfl
        cases same
        exact ⟨exclude, after, rfl⟩
      · have regroup : seen ++ .acquire now' exclude₁ :: (rest' ++ [last]) =
            (seen ++ .acquire now' exclude₁ :: rest') ++ [last] := by simp
        rw [regroup] at split
        obtain ⟨rfl, -⟩ := List.append_inj' split rfl
        exact ⟨exclude₁, rest' ++ .acquire now exclude :: after, by simp⟩
    obtain ⟨exclude₀, rest', found⟩ := found
    obtain ⟨k, here⟩ := key_of_leased _ leased
    have past : Runs.Ordered Event.time 0 seen := by
      rw [found] at ordered
      exact ((Runs.ordered_append Event.time 0 seen _).mp ordered).1
    have free := (new_free_iff host tokens cfg past here now').mp (free_of_leased _ here leased)
    exact busy seen now' exclude₀ rest' k found out here free

end New

def slowProbe : List Event :=
  [.acquire 0 [], .answer 1000000000 0 (.response 401 none none),
    .acquire 301000000000 [], .acquire 303000000000 []]

theorem probed_alone_iff_slow :
    (∀ es', Reasked slowProbe es' → ProbedAlone 0 (ofTests ["key"] []) es') ↔
      KeptBusy 0 (ofTests ["key"] []) slowProbe :=
  probed_alone_iff _ _ _ (by decide)

theorem probed_twice :
    Runs.Ordered Event.time 0 slowProbe ∧ ¬ ProbedAlone 0 (ofTests ["key"] []) slowProbe := by
  refine ⟨by decide, ?_⟩
  intro alone
  have disabled : ((((ofTests ["key"] []).after (slowProbe.take 2)).key? 0).get (by decide)).health =
      .disabled 301000000000 "HTTP 401" := by decide
  have out : ProbeOut 0 (ofTests ["key"] []) (slowProbe.take 3) :=
    ⟨slowProbe.take 2, [], .acquire 301000000000 [], [], _, _, _, rfl, (Option.some_get _).symm, disabled,
      trivial, by decide, by simp⟩
  exact alone (slowProbe.take 3) (.acquire 303000000000 []) [] rfl out (by decide)

end Traffic

end BraveRotator
