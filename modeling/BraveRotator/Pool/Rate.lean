import BraveRotator.Lib.Delivery
import BraveRotator.Pool.Window

namespace BraveRotator

open SlidingWindow

theorem KeyState.Change.secLimit_le {window : Duration} {i rps : Nat} {k k' : KeyState} {c : Call}
    {leased : Option Nat} (change : k.Change window i c leased k') (le : k.secLimit ≤ rps)
    (reported : ∀ now o, c = .record now i o → ∀ l, o.learned? = some l → l ≤ rps) :
    k'.secLimit ≤ rps := by
  cases change with
  | digested now o =>
    rw [(k.digest_effect now o).secLimit]
    cases learned : o.learned? with
    | none => exact le
    | some l => exact reported now o rfl l learned
  | bystander now j o other => exact le
  | granted now exclude free =>
    have same : (((k.refresh now).availability now window).1.grant now).secLimit = k.secLimit :=
      (availability_secLimit ..).trans (k.refresh_secLimit now)
    rw [same]
    exact le
  | tidied _ _ _ passive other tidied =>
    rcases tidied with rfl | rfl
    · rw [refresh_secLimit]
      exact le
    · rw [availability_secLimit, refresh_secLimit]
      exact le

namespace Pool

/-- No answer recorded reports more requests per second. -/
def Reports (rps : Nat) (cs : List Call) : Prop :=
  ∀ t i o, Call.record t i o ∈ cs → ∀ l, o.learned? = some l → l ≤ rps

theorem secLimit_le_run {p : Pool} {rps : Nat} {cs : List Call} (slow : ∀ k ∈ p.keys, k.secLimit ≤ rps)
    (reports : Reports rps cs) : ∀ k ∈ (p.after cs).keys, k.secLimit ≤ rps := by
  induction cs generalizing p with
  | nil => exact slow
  | cons c cs ih =>
    refine ih (p := p.step c) ?_ fun t i o member => reports t i o (List.mem_cons_of_mem c member)
    intro k' member
    obtain ⟨i, there⟩ := List.mem_iff_getElem?.mp member
    obtain ⟨k, here, change⟩ := p.step_key_inv there
    refine change.secLimit_le (slow k (List.mem_of_getElem? here)) ?_
    rintro now o rfl
    exact reports now i o List.mem_cons_self

variable (host : Host) (tokens : List String) (cfg : PoolConfig)

/-- The grants of a key keep to the rate that is assumed and reported, wherever the window lies. -/
theorem grants_limited {rps : Nat} {cs : List Call} (ordered : Runs.Ordered Call.time 0 cs)
    (slow : max cfg.defaultRps 1 ≤ rps) (reports : Reports rps cs) (i : Nat) :
    Limited (new host tokens cfg).window rps ((new host tokens cfg).grants i cs) := by
  induction cs using List.reverseRecOn with
  | nil => exact limited_nil
  | append_singleton cs c ih =>
    obtain ⟨past, le, -⟩ := (Runs.ordered_append Call.time 0 cs [c]).mp ordered
    have before : Reports rps cs := fun t j o member => reports t j o (List.mem_append_left _ member)
    have added : (new host tokens cfg).grants i (cs ++ [c]) = (new host tokens cfg).grants i cs ++
        if ((new host tokens cfg).after cs).leased c = some i then [c.time] else [] := by
      rw [grants, leases, Runs.collect_append, timesOf_append, Runs.collect_cons, Runs.collect_nil,
        List.append_nil]
      exact congrArg _ (timesOf_leased _ c i)
    rw [added]
    by_cases leased : ((new host tokens cfg).after cs).leased c = some i
    · rw [if_pos leased]
      apply (ih past before).concat
      obtain ⟨now, exclude, k, rfl, here, -, free, -⟩ := leased_cases _ leased
      have windowed : k.Windowed (new host tokens cfg).window ((new host tokens cfg).grants i cs) now :=
        (windowed_run host tokens cfg past i k here).advance le
      have positive := (new host tokens cfg).window_pos
      rw [after_window] at free
      have room := ((windowed.toOrderly.free_iff positive).mp free).room
      rw [← windowed.tracks.recent_live] at room
      have first : ∀ k ∈ (new host tokens cfg).keys, k.secLimit ≤ rps := by
        intro k member
        obtain ⟨j, here⟩ := List.mem_iff_getElem?.mp member
        obtain ⟨token, rfl⟩ := new_key host tokens cfg here
        exact slow
      rw [recent_concat _ _ _ (Nat.lt_add_of_pos_right positive)]
      exact Nat.succ_le_of_lt
        (room.trans_le (secLimit_le_run first before k (List.mem_of_getElem? here)))
    · rw [if_neg leased, List.append_nil]
      exact ih past before

end Pool

end BraveRotator
