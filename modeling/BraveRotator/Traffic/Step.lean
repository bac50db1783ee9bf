import BraveRotator.Key.Effects
import BraveRotator.Model.Traffic
import BraveRotator.Pool.Step

namespace BraveRotator

/-- What an event does to a key, given the outcome it records for the key and whether it leases it. -/
inductive KeyState.Turn (window : Duration) (now : Instant) (k : KeyState) :
    Option Outcome → Bool → KeyState → Prop
  | digested (o : Outcome) : Turn window now k (some o) false (k.digest now o).1
  | granted (free : ((k.refresh now).availability now window).2 = .ok ()) :
      Turn window now k none true (((k.refresh now).availability now window).1.grant now)
  | tidied (k' : KeyState) (tidied : k.Tidied now window k') : Turn window now k none false k'
  | untouched : Turn window now k none false k

theorem KeyState.Change.turn {window : Duration} {i : Nat} {k k' : KeyState} {c : Call}
    {leased : Option Nat} (change : k.Change window i c leased k') :
    k.Turn window c.time (c.recorded i) (decide (leased = some i)) k' := by
  cases change with
  | digested now o =>
    have recorded : (Call.record now i o).recorded i = some o := if_pos rfl
    rw [recorded]
    exact .digested o
  | bystander now j o other =>
    have recorded : (Call.record now j o).recorded i = none := if_neg other
    rw [recorded]
    exact .untouched
  | granted now exclude free =>
    rw [decide_eq_true rfl]
    exact .granted free
  | tidied _ _ _ passive other tidied =>
    rw [decide_eq_false other]
    cases c with
    | record now j o => exact absurd rfl (passive now j o)
    | tryAcquire now exclude => exact .tidied k' tidied
    | snapshot now => exact .tidied k' tidied

namespace Traffic

variable (t : Traffic)

theorem call_time {e : Event} {c : Call} (called : t.call e = some c) : c.time = e.time := by
  cases e with
  | acquire now exclude => cases called; rfl
  | answer now id outcome =>
    obtain ⟨f, -, rfl⟩ := Option.map_eq_some_iff.mp called
    rfl
  | observe now => cases called; rfl

theorem step_pool (e : Event) :
    (t.step e).pool = match t.call e with
      | some c => t.pool.step c
      | none => t.pool := by
  cases e with
  | acquire now exclude =>
    simp only [step, call, Pool.step, Pool.serve]
    cases (t.pool.tryAcquire now exclude).2 <;> rfl
  | answer now id outcome =>
    simp only [step, call]
    cases t.flight id <;> rfl
  | observe now => rfl

theorem leased_of_call {e : Event} {c : Call} (called : t.call e = some c) :
    t.leased e = t.pool.leased c := by rw [leased, called, Option.bind_some]

theorem leased_acquire (now : Instant) (exclude : List Nat) :
    t.leased (.acquire now exclude) = t.pool.leased (.tryAcquire now exclude) := rfl

@[simp] theorem leased_answer (now : Instant) (id : Nat) (o : Outcome) :
    t.leased (.answer now id o) = none := by
  simp only [leased, call]
  cases t.flight id <;> rfl

@[simp] theorem leased_observe (now : Instant) : t.leased (.observe now) = none := rfl

theorem after_append (as bs : List Event) : t.after (as ++ bs) = (t.after as).after bs :=
  Runs.exec_append ..

theorem after_concat (es : List Event) (e : Event) : t.after (es ++ [e]) = (t.after es).step e :=
  t.after_append es [e]

/-- The one account of what events do to a key. -/
theorem step_key {i : Nat} {k : KeyState} (here : t.key? i = some k) (e : Event) :
    ∃ k', (t.step e).key? i = some k' ∧
      k.Turn t.pool.window e.time (recorded i t e) (decide (t.leased e = some i)) k' := by
  cases called : t.call e with
  | none =>
    have same : (t.step e).pool = t.pool := by rw [step_pool, called]
    have quiet : t.leased e = none := by rw [leased, called, Option.bind_none]
    refine ⟨k, by rw [key?, same]; exact here, ?_⟩
    rw [recorded, called, quiet]
    exact .untouched
  | some c =>
    have pool : (t.step e).pool = t.pool.step c := by rw [step_pool, called]
    obtain ⟨k', there, change⟩ := t.pool.step_key here c
    refine ⟨k', by rw [key?, pool]; exact there, ?_⟩
    rw [recorded, called, Option.bind_some, t.leased_of_call called, ← t.call_time called]
    exact change.turn

theorem after_length (es : List Event) :
    (t.after es).pool.keys.length = t.pool.keys.length := by
  have keep : ∀ (s : Traffic) (e : Event), s.pool.keys.length = t.pool.keys.length →
      (s.step e).pool.keys.length = t.pool.keys.length := by
    intro s e same
    rw [step_pool, ← same]
    cases s.call e with
    | none => rfl
    | some c => exact s.pool.step_length c
  exact Runs.exec_invariant' keep es rfl

theorem key_of_leased {i : Nat} {e : Event} (leased : t.leased e = some i) :
    ∃ k, t.key? i = some k := by
  obtain ⟨c, called, leased⟩ := Option.bind_eq_some_iff.mp leased
  obtain ⟨-, -, k, -, here, -⟩ := t.pool.leased_cases leased
  exact ⟨k, here⟩

theorem key_of_after {i : Nat} (es : List Event) {k' : KeyState}
    (there : (t.after es).key? i = some k') : ∃ k, t.key? i = some k := by
  have inside := (List.getElem?_eq_some_iff.mp there).1
  rw [after_length] at inside
  exact ⟨_, List.getElem?_eq_getElem inside⟩

theorem free_of_leased {i : Nat} {k : KeyState} (here : t.key? i = some k) {e : Event}
    (leased : t.leased e = some i) :
    ((k.refresh e.time).availability e.time t.pool.window).2 = .ok () := by
  obtain ⟨k', -, turn⟩ := t.step_key here e
  rw [decide_eq_true leased] at turn
  generalize recorded i t e = outcome at turn
  cases turn with
  | granted free => exact free

def calls (es : List Event) : List Call := Runs.collect step call t es

theorem after_pool (es : List Event) : (t.after es).pool = t.pool.after (t.calls es) := by
  induction es generalizing t with
  | nil => rfl
  | cons e es ih =>
    have rest := ih (t.step e)
    rw [step_pool] at rest
    rw [calls, Runs.collect_cons]
    cases called : t.call e with
    | none =>
      rw [called] at rest
      exact rest
    | some c =>
      rw [called] at rest
      exact rest

theorem calls_ordered {now : Instant} {es : List Event} (ordered : Runs.Ordered Event.time now es) :
    Runs.Ordered Call.time now (t.calls es) := by
  induction es generalizing t now with
  | nil => trivial
  | cons e es ih =>
    have rest := ih (t.step e) ordered.2
    rw [calls, Runs.collect_cons]
    cases called : t.call e with
    | none => exact rest.weaken ordered.1
    | some c =>
      have time := t.call_time called
      refine ⟨time ▸ ordered.1, ?_⟩
      rw [time]
      exact rest

end Traffic

end BraveRotator
