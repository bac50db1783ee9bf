import BraveRotator.Key.Likeness
import BraveRotator.Lib.Selection
import BraveRotator.Pool.Step

namespace BraveRotator

section Free

variable {α : Type*} (now : Instant) (window : Duration) (f : α → Nat × KeyState) (l : List α)

theorem filterMap_free? :
    (l.map f).filterMap (free? now window) =
      (l.filter fun a => ((f a).2.availability now window).2.toBool).map
        fun a => ((f a).1, (f a).2.score) := by
  induction l with
  | nil => rfl
  | cons a l ih =>
    rw [List.map_cons, List.filterMap_cons, List.filter_cons, ih]
    unfold free?
    cases ((f a).2.availability now window).2 <;> rfl

end Free

/-- What a caller is told by `try_acquire`, but for the summary. -/
inductive Told where
  | leased (lease : Lease)
  | waits (instant : Instant)
  | unavailable (earliest : Option Instant)
  deriving DecidableEq

def told : Except Next Lease → Told
  | .ok lease => .leased lease
  | .error (.at u) => .waits u
  | .error (.unavailable earliest _) => .unavailable earliest

namespace Pool

/-- Every key that has never been leased is `ok`. -/
def FreshUnused (p : Pool) : Prop := ∀ k ∈ p.keys, k.lastUsed = none → k.health = .ok

/-- No two keys were leased last at the same instant. -/
def UsedApart (p : Pool) : Prop :=
  ∀ (i j : Nat) (k k' : KeyState) (t : Instant), p.keys[i]? = some k → p.keys[j]? = some k' →
    k.lastUsed = some t → k'.lastUsed = some t → i = j

structure Alike (now : Instant) (p p' : Pool) : Prop where
  window : p'.window = p.window
  length : p'.keys.length = p.keys.length
  keys : ∀ (i : Nat) (k k' : KeyState), p.keys[i]? = some k → p'.keys[i]? = some k' →
    k.Alike now p.window k'

theorem Alike.later {now t : Instant} {p p' : Pool} (alike : p.Alike now p') (le : now ≤ t) :
    p.Alike t p' :=
  ⟨alike.window, alike.length, fun i k k' here there => (alike.keys i k k' here there).later le⟩

theorem Alike.key {now : Instant} {p p' : Pool} (alike : p.Alike now p') {i : Nat} {k : KeyState}
    (here : p.keys[i]? = some k) : ∃ k', p'.keys[i]? = some k' ∧ k.Alike now p.window k' := by
  have inside : i < p'.keys.length := by
    rw [alike.length]
    exact (List.getElem?_eq_some_iff.mp here).1
  exact ⟨_, List.getElem?_eq_getElem inside,
    alike.keys i k _ here (List.getElem?_eq_getElem inside)⟩

theorem Alike.symm {now : Instant} {p p' : Pool} (alike : p.Alike now p') : p'.Alike now p :=
  ⟨alike.window.symm, alike.length.symm, fun i k k' here there => by
    rw [alike.window]
    exact (alike.keys i k' k there here).symm⟩

section Answer

variable (p p' : Pool) (now : Instant) (exclude : List Nat)

/-- The keys of both pools that a call on the first looks at. -/
def looked : List (Nat × KeyState × KeyState) :=
  visited exclude (p.spares now exclude) 0 (p.keys.zip p'.keys)

/-- Those of them that may be leased. -/
def lookedFree : List (Nat × KeyState × KeyState) :=
  (p.looked p' now exclude).filter fun entry => (entry.2.1.look now p.window).2.toBool

variable {p p' now exclude}

theorem mem_looked {entry : Nat × KeyState × KeyState} (member : entry ∈ p.looked p' now exclude) :
    p.keys[entry.1]? = some entry.2.1 ∧ p'.keys[entry.1]? = some entry.2.2 := by
  obtain ⟨-, zipped, -⟩ := (mem_visited ..).mp member
  exact List.getElem?_zip_eq_some.mp zipped

theorem Alike.spares (alike : p.Alike now p') : p'.spares now exclude = p.spares now exclude := by
  rw [Bool.eq_iff_iff, spares_iff, spares_iff]
  constructor
  · rintro ⟨i, k', there, fresh, healthy⟩
    obtain ⟨k, here, same⟩ := alike.symm.key there
    exact ⟨i, k, here, fresh, (same.healthy_iff le_rfl).mpr healthy⟩
  · rintro ⟨i, k, here, fresh, healthy⟩
    obtain ⟨k', there, same⟩ := alike.key here
    exact ⟨i, k', there, fresh, (same.healthy_iff le_rfl).mpr healthy⟩

theorem candidates_left (length : p'.keys.length = p.keys.length) :
    p.candidates now exclude =
      (p.looked p' now exclude).map fun entry => (entry.1, entry.2.1.refresh now) := by
  have keys : (p.keys.zip p'.keys).map Prod.fst = p.keys := List.map_fst_zip length.ge
  rw [candidates, ← congrArg (List.map (KeyState.refresh · now)) keys, List.map_map, visited_map]
  rfl

theorem Alike.candidates_looked (alike : p.Alike now p') :
    p'.candidates now exclude =
      (p.looked p' now exclude).map fun entry => (entry.1, entry.2.2.refresh now) := by
  have keys : (p.keys.zip p'.keys).map Prod.snd = p'.keys := List.map_snd_zip alike.length.le
  rw [candidates, alike.spares, ← congrArg (List.map (KeyState.refresh · now)) keys, List.map_map,
    visited_map]
  rfl

theorem freeScores_left (length : p'.keys.length = p.keys.length) :
    p.freeScores now exclude = (p.lookedFree p' now exclude).map
      fun entry => (entry.1, (entry.2.1.refresh now).score) := by
  rw [freeScores, candidates_left length, filterMap_free?]
  rfl

theorem Alike.freeScores_looked (alike : p.Alike now p') :
    p'.freeScores now exclude = (p.lookedFree p' now exclude).map
      fun entry => (entry.1, (entry.2.2.refresh now).score) := by
  rw [freeScores, alike.candidates_looked, filterMap_free?, alike.window]
  refine congrArg (List.map _) (List.filter_congr fun entry member => ?_)
  obtain ⟨here, there⟩ := mem_looked member
  exact congrArg Except.toBool ((alike.keys _ _ _ here there).look le_rfl)

/-- Where the quota could make a difference, the keys were leased last at the same instant. -/
theorem Alike.scores_iff (alike : p.Alike now p') (unused : p.FreshUnused) (apart : p.UsedApart)
    {a b : Nat × KeyState × KeyState} (left : a ∈ p.looked p' now exclude)
    (right : b ∈ p.looked p' now exclude) :
    (a.2.2.refresh now).score ≤ (b.2.2.refresh now).score ↔
      (a.2.1.refresh now).score ≤ (b.2.1.refresh now).score := by
  obtain ⟨hereA, thereA⟩ := mem_looked left
  obtain ⟨hereB, thereB⟩ := mem_looked right
  obtain ⟨usedA, scoreA⟩ := (alike.keys _ _ _ hereA thereA).score (t := now)
    (unused _ (List.mem_of_getElem? hereA))
  obtain ⟨usedB, scoreB⟩ := (alike.keys _ _ _ hereB thereB).score (t := now)
    (unused _ (List.mem_of_getElem? hereB))
  have plain : ∀ k : KeyState, (k.refresh now).lastUsed = k.lastUsed := fun k => by simp
  by_cases same : a.2.1.lastUsed = b.2.1.lastUsed
  · cases last : a.2.1.lastUsed with
    | none => rw [scoreA last, scoreB (same ▸ last)]
    | some t =>
      have one := apart _ _ _ _ t hereA hereB last (same ▸ last)
      rw [one] at hereA thereA
      have left' : a.2.1 = b.2.1 := Option.some.inj (hereA.symm.trans hereB)
      have right' : a.2.2 = b.2.2 := Option.some.inj (thereA.symm.trans thereB)
      rw [left', right']
      exact iff_of_true le_rfl le_rfl
  · have differ : ∀ s₁ s₂ : Score, (ofLex s₁).1 ≠ (ofLex s₂).1 →
        (s₁ ≤ s₂ ↔ (ofLex s₁).1 < (ofLex s₂).1) := by
      intro s₁ s₂ other
      rw [Prod.Lex.le_iff]
      constructor
      · rintro (lt | ⟨eq, -⟩)
        · exact lt
        · exact absurd eq other
      · exact .inl
    have first : ∀ k : KeyState, (ofLex k.score).1 = k.lastUsed := fun _ => rfl
    have other : (ofLex (a.2.1.refresh now).score).1 ≠ (ofLex (b.2.1.refresh now).score).1 := by
      rw [first, first, plain, plain]
      exact same
    have same' : ∀ {k k' : KeyState}, k'.lastUsed = k.lastUsed →
        (ofLex k'.score).1 = (ofLex k.score).1 := fun eq => eq
    rw [differ _ _ other, differ _ _ (by rw [same' usedA, same' usedB]; exact other), same' usedA,
      same' usedB]

theorem Alike.best (alike : p.Alike now p') (unused : p.FreshUnused) (apart : p.UsedApart) :
    ((p'.freeScores now exclude).argmin (·.2)).map Prod.fst =
      ((p.freeScores now exclude).argmin (·.2)).map Prod.fst := by
  have same : (p.lookedFree p' now exclude).argmin (fun entry => (entry.2.2.refresh now).score) =
      (p.lookedFree p' now exclude).argmin fun entry => (entry.2.1.refresh now).score :=
    Selection.argmin_congr fun a left b right =>
      alike.scores_iff unused apart (List.mem_of_mem_filter left) (List.mem_of_mem_filter right)
  rw [alike.freeScores_looked, freeScores_left alike.length, Selection.argmin_map,
    Selection.argmin_map, Option.map_map, Option.map_map]
  exact congrArg _ same

theorem Alike.blocked (alike : p.Alike now p') :
    (p'.candidates now exclude).filterMap (blocked? now p'.window) =
      (p.candidates now exclude).filterMap (blocked? now p.window) := by
  rw [alike.candidates_looked, candidates_left alike.length, List.filterMap_map,
    List.filterMap_map, alike.window]
  refine List.filterMap_congr fun entry member => ?_
  obtain ⟨here, there⟩ := mem_looked member
  have look : ((entry.2.2.refresh now).availability now p.window).2 =
      ((entry.2.1.refresh now).availability now p.window).2 :=
    (alike.keys _ _ _ here there).look le_rfl
  unfold blocked?
  simp only [Function.comp_apply]
  rw [look]

theorem sick_of_unhealthy (sick : ∀ i k, (i, k) ∈ p.candidates now exclude → k.health ≠ .ok) :
    ∀ k ∈ p.keys, ¬ k.Healthy now := by
  intro k member
  obtain ⟨i, here⟩ := List.mem_iff_getElem?.mp member
  exact p.parked_of_sick now exclude sick here

theorem unhealthy_of_candidates {i : Nat} {k : KeyState}
    (candidate : (i, k) ∈ p.candidates now exclude) (ok : k.health = .ok) :
    ∃ k ∈ p.keys, k.Healthy now := by
  obtain ⟨⟨k₀, here, rfl⟩, -⟩ := (p.mem_candidates now exclude).mp candidate
  exact ⟨k₀, List.mem_of_getElem? here, (k₀.refresh_ok_iff now).mp ok⟩

theorem Alike.exists_healthy (alike : p.Alike now p') (healthy : ∃ k ∈ p.keys, k.Healthy now) :
    ∃ k ∈ p'.keys, k.Healthy now := by
  obtain ⟨k, member, healthy⟩ := healthy
  obtain ⟨i, here⟩ := List.mem_iff_getElem?.mp member
  obtain ⟨k', there, same⟩ := alike.key here
  exact ⟨k', List.mem_of_getElem? there, (same.healthy_iff le_rfl).mpr healthy⟩

theorem Alike.tells (alike : p.Alike now p') (unused : p.FreshUnused) (apart : p.UsedApart) :
    told (p'.tryAcquire now exclude).2 = told (p.tryAcquire now exclude).2 := by
  have best : ((p'.freeScores now exclude).argmin (·.2)).map Prod.fst =
      ((p.freeScores now exclude).argmin (·.2)).map Prod.fst := alike.best unused apart
  have blocked : (p'.candidates now exclude).filterMap (blocked? now p'.window) =
      (p.candidates now exclude).filterMap (blocked? now p.window) := alike.blocked
  have cases := p.tryAcquire_cases now exclude
  have cases' := p'.tryAcquire_cases now exclude
  generalize p.tryAcquire now exclude = result at cases
  generalize p'.tryAcquire now exclude = result' at cases'
  cases cases with
  | leased i k here candidate free chosen =>
    rw [chosen] at best
    cases cases' with
    | leased j k' there candidate' free' chosen' =>
      rw [chosen'] at best
      obtain rfl : j = i := Option.some.inj best
      obtain ⟨d, same⟩ := (alike.keys _ _ _ here there).rest
      rw [same]
      rfl
    | waits u noneFree least healthy =>
      rw [noneFree] at best
      cases best
    | unavailable summary sick =>
      have healthy := (k.refresh_ok_iff now).mp (KeyState.availability_ok_iff.mp free).1
      obtain ⟨k', member, healthy'⟩ :=
        alike.exists_healthy ⟨k, List.mem_of_getElem? here, healthy⟩
      exact absurd healthy' (sick_of_unhealthy sick k' member)
  | waits u noneFree least healthy =>
    rw [noneFree] at best
    cases cases' with
    | leased j k' there candidate' free' chosen' =>
      rw [chosen'] at best
      cases best
    | waits u' noneFree' least' healthy' =>
      rw [blocked, least] at least'
      rw [Option.some.inj least']
    | unavailable summary sick =>
      obtain ⟨i, k, candidate, ok⟩ := healthy
      obtain ⟨k', member, healthy'⟩ :=
        alike.exists_healthy (unhealthy_of_candidates candidate ok)
      exact absurd healthy' (sick_of_unhealthy sick k' member)
  | unavailable summary sick =>
    have none := sick_of_unhealthy sick
    cases cases' with
    | leased j k' there candidate' free' chosen' =>
      have healthy := (k'.refresh_ok_iff now).mp (KeyState.availability_ok_iff.mp free').1
      obtain ⟨k, member, healthy'⟩ :=
        alike.symm.exists_healthy ⟨k', List.mem_of_getElem? there, healthy⟩
      exact absurd healthy' (none k member)
    | waits u' noneFree' least' healthy' =>
      obtain ⟨i, k, candidate, ok⟩ := healthy'
      obtain ⟨k', member, healthy''⟩ :=
        alike.symm.exists_healthy (unhealthy_of_candidates candidate ok)
      exact absurd healthy'' (none k' member)
    | unavailable summary' sick' =>
      show Told.unavailable _ = Told.unavailable _
      rw [blocked]

end Answer

end Pool

end BraveRotator
