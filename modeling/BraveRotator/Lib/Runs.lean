import Mathlib.Order.Basic
import Mathlib.Tactic.Common

/-! Runs of a deterministic system over a list of timed events, oldest first. -/

namespace Runs

variable {σ ε τ β γ : Type*}

section Steps

variable (step : σ → ε → σ)

def exec (s : σ) : List ε → σ
  | [] => s
  | e :: es => exec (step s e) es

/-- Every event of the run meets `P` in the state that it finds. -/
def Along (P : σ → ε → Prop) (s : σ) : List ε → Prop
  | [] => True
  | e :: es => P s e ∧ Along P (step s e) es

/-- What `f` reads off the events of the run, in order. -/
def collect (f : σ → ε → Option β) (s : σ) : List ε → List β
  | [] => []
  | e :: es => (f s e).toList ++ collect f (step s e) es

instance Along.decidable (P : σ → ε → Prop) [∀ s e, Decidable (P s e)] :
    ∀ s es, Decidable (Along step P s es)
  | _, [] => .isTrue trivial
  | s, e :: es => @instDecidableAnd _ _ _ (Along.decidable P (step s e) es)

@[simp] theorem exec_nil (s : σ) : exec step s [] = s := rfl

@[simp] theorem exec_cons (s : σ) (e : ε) (es : List ε) :
    exec step s (e :: es) = exec step (step s e) es := rfl

@[simp] theorem along_nil (P : σ → ε → Prop) (s : σ) : Along step P s [] := trivial

@[simp] theorem along_cons (P : σ → ε → Prop) (s : σ) (e : ε) (es : List ε) :
    Along step P s (e :: es) ↔ P s e ∧ Along step P (step s e) es := Iff.rfl

@[simp] theorem collect_nil (f : σ → ε → Option β) (s : σ) : collect step f s [] = [] := rfl

@[simp] theorem collect_cons (f : σ → ε → Option β) (s : σ) (e : ε) (es : List ε) :
    collect step f s (e :: es) = (f s e).toList ++ collect step f (step s e) es := rfl

theorem exec_append (s : σ) (as bs : List ε) :
    exec step s (as ++ bs) = exec step (exec step s as) bs := by
  induction as generalizing s with
  | nil => rfl
  | cons a as ih => exact ih (step s a)

theorem along_append (P : σ → ε → Prop) (s : σ) (as bs : List ε) :
    Along step P s (as ++ bs) ↔ Along step P s as ∧ Along step P (exec step s as) bs := by
  induction as generalizing s with
  | nil => simp
  | cons a as ih => simp [ih, and_assoc]

theorem collect_append (f : σ → ε → Option β) (s : σ) (as bs : List ε) :
    collect step f s (as ++ bs) = collect step f s as ++ collect step f (exec step s as) bs := by
  induction as generalizing s with
  | nil => rfl
  | cons a as ih => simp [ih]

variable {step}

theorem Along.mono {P Q : σ → ε → Prop} (weaker : ∀ s e, P s e → Q s e) {s : σ} {es : List ε}
    (along : Along step P s es) : Along step Q s es := by
  induction es generalizing s with
  | nil => trivial
  | cons e es ih => exact ⟨weaker _ _ along.1, ih along.2⟩

theorem along_of_forall {P : σ → ε → Prop} (all : ∀ s e, P s e) (s : σ) (es : List ε) :
    Along step P s es := by
  induction es generalizing s with
  | nil => trivial
  | cons e es ih => exact ⟨all s e, ih _⟩

/-- A run meets `P` along the way when each of its events does after the ones before it. -/
theorem along_iff_split {P : σ → ε → Prop} {s : σ} {es : List ε} :
    Along step P s es ↔ ∀ before e after, es = before ++ e :: after → P (exec step s before) e := by
  constructor
  · rintro along before e after rfl
    exact ((along_append ..).mp along).2.1
  · intro split
    induction es generalizing s with
    | nil => trivial
    | cons e es ih =>
      refine ⟨split [] e es rfl, ih ?_⟩
      intro before e' after same
      exact split (e :: before) e' after (by rw [same]; rfl)

theorem collect_map (f : σ → ε → Option β) (g : β → γ) (s : σ) (es : List ε) :
    (collect step f s es).map g = collect step (fun s e => (f s e).map g) s es := by
  induction es generalizing s with
  | nil => rfl
  | cons e es ih =>
    rw [collect_cons, collect_cons, List.map_append, ih]
    cases f s e <;> rfl

theorem collect_split {f : σ → ε → Option β} {s : σ} {es : List ε} {xs ys : List β} {y : β}
    (split : collect step f s es = xs ++ y :: ys) :
    ∃ before e after, es = before ++ e :: after ∧ collect step f s before = xs ∧
      f (exec step s before) e = some y ∧
      collect step f (step (exec step s before) e) after = ys := by
  induction es generalizing s xs with
  | nil => simp at split
  | cons e es ih =>
    rw [collect_cons] at split
    cases found : f s e with
    | none =>
      rw [found] at split
      obtain ⟨before, e', after, rfl, first, here, rest⟩ := ih split
      exact ⟨e :: before, e', after, rfl, by simp [found, first], here, rest⟩
    | some x =>
      rw [found] at split
      cases xs with
      | nil =>
        obtain ⟨rfl, rest⟩ := List.cons_eq_cons.mp split
        exact ⟨[], e, es, rfl, rfl, found, rest⟩
      | cons x' xs =>
        obtain ⟨rfl, rest⟩ := List.cons_eq_cons.mp split
        obtain ⟨before, e', after, rfl, first, here, rest⟩ := ih rest
        exact ⟨e :: before, e', after, rfl, by simp [found, first], here, rest⟩

theorem exec_invariant {I : σ → Prop} {P : σ → ε → Prop}
    (keep : ∀ s e, I s → P s e → I (step s e)) {s : σ} {es : List ε} (start : I s)
    (along : Along step P s es) : I (exec step s es) := by
  induction es generalizing s with
  | nil => exact start
  | cons e es ih => exact ih (keep _ _ start along.1) along.2

theorem exec_invariant' {I : σ → Prop} (keep : ∀ s e, I s → I (step s e)) {s : σ} (es : List ε)
    (start : I s) : I (exec step s es) :=
  exec_invariant (P := fun _ _ => True) (fun s e h _ => keep s e h) start
    (along_of_forall (fun _ _ => trivial) s es)

/-- A property holds in all states of a run exactly when each step keeps it. -/
theorem always_iff {I : σ → Prop} {P : σ → ε → Prop}
    (keep : ∀ s e, I s → (I (step s e) ↔ P s e)) {s : σ} {es : List ε} (start : I s) :
    (∀ seen rest, es = seen ++ rest → I (exec step s seen)) ↔ Along step P s es := by
  induction es generalizing s with
  | nil =>
    refine iff_of_true ?_ trivial
    intro seen rest split
    rw [(List.append_eq_nil_iff.mp split.symm).1]
    exact start
  | cons e es ih =>
    rw [along_cons, ← keep s e start]
    constructor
    · intro always
      have next : I (step s e) := always [e] es rfl
      refine ⟨next, (ih next).mp ?_⟩
      intro seen rest split
      exact always (e :: seen) rest (by rw [split]; rfl)
    · rintro ⟨next, along⟩ seen rest split
      cases seen with
      | nil => exact start
      | cons e' seen =>
        obtain ⟨rfl, tail⟩ := List.cons_eq_cons.mp split
        exact (ih next).mpr along seen rest tail

/-- The induction principle for properties of the state and what has been read off the run so far,
    as long as the collection is `fine`. -/
theorem collected_invariant {f : σ → ε → Option β} {I : List β → σ → Prop} {fine : List β → Prop}
    (cut : ∀ as bs, fine (as ++ bs) → fine as)
    (keep : ∀ history s e, I history s → fine (history ++ (f s e).toList) →
      I (history ++ (f s e).toList) (step s e))
    {history : List β} {s : σ} {es : List ε} (start : I history s)
    (good : fine (history ++ collect step f s es)) :
    I (history ++ collect step f s es) (exec step s es) := by
  induction es generalizing history s with
  | nil => simpa using start
  | cons e es ih =>
    rw [collect_cons, ← List.append_assoc] at good ⊢
    exact ih (keep _ _ _ start (cut _ _ good)) good

theorem collected_invariant' {f : σ → ε → Option β} {I : List β → σ → Prop}
    (keep : ∀ history s e, I history s → I (history ++ (f s e).toList) (step s e))
    {history : List β} {s : σ} (es : List ε) (start : I history s) :
    I (history ++ collect step f s es) (exec step s es) := by
  let fine (_ : List β) : Prop := True
  have cut : ∀ as bs, fine (as ++ bs) → fine as := fun _ _ _ => trivial
  have good : fine (history ++ collect step f s es) := trivial
  exact collected_invariant cut (fun history s e inv _ => keep history s e inv) start good

end Steps

section Clock

variable (time : ε → τ)

def clock (now : τ) : List ε → τ
  | [] => now
  | e :: es => clock (time e) es

@[simp] theorem clock_nil (now : τ) : clock time now [] = now := rfl

@[simp] theorem clock_cons (now : τ) (e : ε) (es : List ε) :
    clock time now (e :: es) = clock time (time e) es := rfl

theorem clock_append (now : τ) (as bs : List ε) :
    clock time now (as ++ bs) = clock time (clock time now as) bs := by
  induction as generalizing now with
  | nil => rfl
  | cons a as ih => exact ih (time a)

end Clock

section Time

variable [Preorder τ] (time : ε → τ)

/-- The readings of the clock never go back, from `now` on. -/
def Ordered (now : τ) : List ε → Prop
  | [] => True
  | e :: es => now ≤ time e ∧ Ordered (time e) es

instance Ordered.decidable [DecidableLE τ] : ∀ now es, Decidable (Ordered time now es)
  | _, [] => .isTrue trivial
  | _, e :: es => @instDecidableAnd _ _ _ (Ordered.decidable (time e) es)

@[simp] theorem ordered_nil (now : τ) : Ordered time now [] := trivial

@[simp] theorem ordered_cons (now : τ) (e : ε) (es : List ε) :
    Ordered time now (e :: es) ↔ now ≤ time e ∧ Ordered time (time e) es := Iff.rfl

theorem ordered_append (now : τ) (as bs : List ε) :
    Ordered time now (as ++ bs) ↔ Ordered time now as ∧ Ordered time (clock time now as) bs := by
  induction as generalizing now with
  | nil => simp
  | cons a as ih => simp [ih, and_assoc]

variable {time}

theorem Ordered.weaken {now earlier : τ} {es : List ε} (ordered : Ordered time now es)
    (le : earlier ≤ now) : Ordered time earlier es := by
  cases es with
  | nil => trivial
  | cons e es => exact ⟨le.trans ordered.1, ordered.2⟩

theorem Ordered.sorted {now : τ} {es : List ε} (ordered : Ordered time now es) :
    (now :: es.map time).Pairwise (· ≤ ·) := by
  induction es generalizing now with
  | nil => exact List.pairwise_singleton _ _
  | cons e es ih =>
    have rest := ih ordered.2
    refine List.pairwise_cons.mpr ⟨?_, rest⟩
    intro t member
    rcases List.mem_cons.mp member with rfl | member
    · exact ordered.1
    · exact ordered.1.trans ((List.pairwise_cons.mp rest).1 t member)

theorem ordered_const {now : τ} {es : List ε} (at_ : ∀ e ∈ es, time e = now) :
    Ordered time now es ∧ clock time now es = now := by
  induction es with
  | nil => exact ⟨trivial, rfl⟩
  | cons e es ih =>
    have first := at_ e List.mem_cons_self
    have rest := ih fun e' member => at_ e' (List.mem_cons_of_mem _ member)
    rw [ordered_cons, clock_cons, first]
    exact ⟨⟨le_rfl, rest.1⟩, rest.2⟩

/-- The induction principle for properties of the state, the clock and what has been read off the
    run so far. -/
theorem history_invariant {step : σ → ε → σ} {f : σ → ε → Option β} {I : List β → τ → σ → Prop}
    {P : σ → ε → Prop}
    (keep : ∀ history now s e, I history now s → now ≤ time e → P s e →
      I (history ++ (f s e).toList) (time e) (step s e))
    {history : List β} {now : τ} {s : σ} {es : List ε} (start : I history now s)
    (ordered : Ordered time now es) (along : Along step P s es) :
    I (history ++ collect step f s es) (clock time now es) (exec step s es) := by
  induction es generalizing history now s with
  | nil => simpa using start
  | cons e es ih =>
    have next := ih (keep _ _ _ _ start ordered.1 along.1) ordered.2 along.2
    simpa [List.append_assoc] using next

theorem timed_invariant {step : σ → ε → σ} {I : τ → σ → Prop} {P : σ → ε → Prop}
    (keep : ∀ now s e, I now s → now ≤ time e → P s e → I (time e) (step s e))
    {now : τ} {s : σ} {es : List ε} (start : I now s) (ordered : Ordered time now es)
    (along : Along step P s es) : I (clock time now es) (exec step s es) := by
  induction es generalizing now s with
  | nil => exact start
  | cons e es ih => exact ih (keep _ _ _ start ordered.1 along.1) ordered.2 along.2

/-- Two properties of steps that agree while an invariant holds agree along a run. -/
theorem along_congr {step : σ → ε → σ} {I : τ → σ → Prop} {P Q : σ → ε → Prop} {fine : ε → Prop}
    (keep : ∀ now s e, I now s → now ≤ time e → I (time e) (step s e))
    (same : ∀ now s e, I now s → now ≤ time e → fine e → (P s e ↔ Q s e))
    {now : τ} {s : σ} {es : List ε} (start : I now s) (ordered : Ordered time now es)
    (all : ∀ e ∈ es, fine e) : Along step P s es ↔ Along step Q s es := by
  induction es generalizing now s with
  | nil => exact Iff.rfl
  | cons e es ih =>
    rw [along_cons, along_cons, same _ _ _ start ordered.1 (all e List.mem_cons_self)]
    refine and_congr_right fun _ => ?_
    exact ih (keep _ _ _ start ordered.1) ordered.2 fun e' member => all e' (List.mem_cons_of_mem e member)

end Time

section Slot

variable [Preorder τ] (time : ε → τ) (slot : σ → Option τ)

/-- The slot blocks until `u` at least, unless the clock has passed `u`. -/
def Covered (u now : τ) (s : σ) : Prop := u ≤ now ∨ ∃ d, slot s = some d ∧ u ≤ d

/-- A step that leaves the slot alone while it blocks, or moves it later, keeps it covered. -/
theorem covered_run {step : σ → ε → σ} {P : σ → ε → Prop} {u : τ}
    (keep : ∀ s e d, P s e → slot s = some d → u ≤ d → ¬ u ≤ time e →
      ∃ d', slot (step s e) = some d' ∧ u ≤ d')
    {now : τ} {s : σ} {es : List ε} (start : Covered slot u now s)
    (ordered : Ordered time now es) (along : Along step P s es) :
    Covered slot u (clock time now es) (exec step s es) := by
  refine timed_invariant (I := Covered slot u) ?_ start ordered along
  intro now s e covered le allowed
  by_cases passed : u ≤ time e
  · exact .inl passed
  · rcases covered with past | ⟨d, held, later⟩
    · exact absurd (past.trans le) passed
    · exact .inr (keep s e d allowed held later passed)

end Slot

end Runs
