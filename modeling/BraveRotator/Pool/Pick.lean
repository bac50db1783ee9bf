import BraveRotator.Key.Availability

namespace BraveRotator

section Fold

variable (now : Instant) (window : Duration)

def free? (entry : Nat × KeyState) : Option (Nat × Score) :=
  match (entry.2.availability now window).2 with
  | .ok () => some (entry.1, entry.2.score)
  | .error _ => none

def blocked? (entry : Nat × KeyState) : Option Instant :=
  match (entry.2.availability now window).2 with
  | .ok () => none
  | .error u => some u

def Picked.visitEntry (acc : Picked) (entry : Nat × KeyState) : Picked :=
  (acc.visit entry.1 entry.2 now window).2

variable (acc : Picked) (entries : List (Nat × KeyState))

theorem visit_key (i : Nat) (k : KeyState) :
    (acc.visit i k now window).1 = (k.availability now window).1 := by
  unfold Picked.visit
  rcases k.availability now window with ⟨k', ⟨⟩ | ⟨⟩⟩ <;> rfl

theorem visitEntry_anyHealthy (entry : Nat × KeyState) :
    (acc.visitEntry now window entry).anyHealthy = (acc.anyHealthy || entry.2.health.isOk) := by
  unfold Picked.visitEntry Picked.visit
  rcases entry.2.availability now window with ⟨k', ⟨⟩ | ⟨⟩⟩ <;> rfl

theorem visitEntry_best (entry : Nat × KeyState) :
    (acc.visitEntry now window entry).best =
      match free? now window entry with
      | some scored => List.argAux (fun a b => a.2 < b.2) acc.best scored
      | none => acc.best := by
  have score := entry.2.availability_score now window
  unfold Picked.visitEntry Picked.visit free?
  rcases result : entry.2.availability now window with ⟨k', u | ⟨⟩⟩
  · rfl
  · rw [result] at score
    simp only at score
    cases best : acc.best with
    | none => simp [List.argAux, score]
    | some held =>
      by_cases better : entry.2.score < held.2 <;> simp [List.argAux, score, better]

theorem visitEntry_next (entry : Nat × KeyState) :
    (acc.visitEntry now window entry).next =
      match blocked? now window entry with
      | some u => some (match acc.next with | some n => min n u | none => u)
      | none => acc.next := by
  unfold Picked.visitEntry Picked.visit blocked?
  rcases entry.2.availability now window with ⟨k', u | ⟨⟩⟩
  · cases acc.next <;> rfl
  · rfl

theorem fold_anyHealthy :
    (entries.foldl (Picked.visitEntry now window) acc).anyHealthy =
      (acc.anyHealthy || entries.any (·.2.health.isOk)) := by
  induction entries generalizing acc with
  | nil => simp
  | cons entry entries ih => simp [ih, visitEntry_anyHealthy, Bool.or_assoc]

theorem fold_best :
    (entries.foldl (Picked.visitEntry now window) acc).best =
      (entries.filterMap (free? now window)).foldl (List.argAux fun a b => a.2 < b.2) acc.best := by
  induction entries generalizing acc with
  | nil => rfl
  | cons entry entries ih =>
    rw [List.foldl_cons, ih, visitEntry_best, List.filterMap_cons]
    cases free? now window entry <;> rfl

theorem fold_next :
    (entries.foldl (Picked.visitEntry now window) acc).next =
      (entries.filterMap (blocked? now window)).foldl
        (fun next u => some (match next with | some n => min n u | none => u)) acc.next := by
  induction entries generalizing acc with
  | nil => rfl
  | cons entry entries ih =>
    rw [List.foldl_cons, ih, visitEntry_next, List.filterMap_cons]
    cases blocked? now window entry <;> rfl

end Fold

theorem foldl_min (n : Instant) (us : List Instant) :
    us.foldl (fun next u => some (match next with | some n => min n u | none => u)) (some n) =
      some (us.foldl min n) := by
  induction us generalizing n with
  | nil => rfl
  | cons u us ih => exact ih (min n u)

/-- One pass over the entries finds the first of the best scores, the least wait and whether any key
    is healthy. -/
theorem fold_picked (now : Instant) (window : Duration) (entries : List (Nat × KeyState)) :
    entries.foldl (Picked.visitEntry now window) {} =
      { best := (entries.filterMap (free? now window)).argmin (·.2)
        next := (entries.filterMap (blocked? now window)).min?
        anyHealthy := entries.any (·.2.health.isOk) } := by
  have best := fold_best now window {} entries
  have next := fold_next now window {} entries
  have healthy := fold_anyHealthy now window {} entries
  have least : (entries.filterMap (blocked? now window)).foldl
      (fun next u => some (match next with | some n => min n u | none => u)) none =
        (entries.filterMap (blocked? now window)).min? := by
    cases entries.filterMap (blocked? now window) with
    | nil => rfl
    | cons u us => exact foldl_min u us
  rw [least] at next
  rcases h : entries.foldl (Picked.visitEntry now window) {} with ⟨b, n, a⟩
  rw [h] at best next healthy
  simp only [Bool.false_or] at best next healthy
  rw [best, next, healthy]
  rfl

section Visited

variable {α β : Type*} (exclude : List Nat) (skipExcluded : Bool)

def visited (i : Nat) (as : List α) : List (Nat × α) :=
  ((as.zipIdx i).map Prod.swap).filter fun entry => !(skipExcluded && exclude.contains entry.1)

theorem mem_visited {i j : Nat} {a : α} {as : List α} :
    (j, a) ∈ visited exclude skipExcluded i as ↔
      i ≤ j ∧ as[j - i]? = some a ∧ ¬ (skipExcluded = true ∧ j ∈ exclude) := by
  have swapped : (j, a) ∈ (as.zipIdx i).map Prod.swap ↔ (a, j) ∈ as.zipIdx i := by
    constructor
    · intro member
      obtain ⟨entry, inside, same⟩ := List.mem_map.mp member
      cases same
      exact inside
    · exact fun member => List.mem_map.mpr ⟨(a, j), member, rfl⟩
  rw [visited, List.mem_filter, swapped, List.mem_zipIdx_iff_le_and_getElem?_sub, and_assoc]
  cases skipExcluded <;> simp

theorem visited_map (f : α → β) (i : Nat) (as : List α) :
    visited exclude skipExcluded i (as.map f) =
      (visited exclude skipExcluded i as).map (Prod.map id f) := by
  simp only [visited, List.zipIdx_map, List.map_map, List.filter_map]
  rfl

end Visited

section Pass

variable (now : Instant) (window : Duration) (exclude : List Nat) (skipExcluded : Bool)

theorem pickFrom_picked (i : Nat) (acc : Picked) (ks : List KeyState) :
    (pickFrom now window exclude skipExcluded i acc ks).2 =
      (visited exclude skipExcluded i ks).foldl (Picked.visitEntry now window) acc := by
  induction ks generalizing i acc with
  | nil => rfl
  | cons k ks ih =>
    simp only [visited, List.zipIdx_cons, List.map_cons, Prod.swap_prod_mk, List.filter_cons] at ih ⊢
    unfold pickFrom
    by_cases skip : (skipExcluded && exclude.contains i) = true
    · simp only [skip, Bool.not_true, if_true]
      exact ih (i + 1) acc
    · simp only [skip, Bool.not_false]
      exact ih (i + 1) _

theorem pickFrom_keys (i : Nat) (acc : Picked) (ks : List KeyState) :
    (pickFrom now window exclude skipExcluded i acc ks).1 =
      ks.mapIdx fun n k =>
        if skipExcluded && exclude.contains (i + n) then k else (k.availability now window).1 := by
  induction ks generalizing i acc with
  | nil => rfl
  | cons k ks ih =>
    have shift : ∀ n, i + 1 + n = i + (n + 1) := fun n => by lia
    simp only [pickFrom, List.mapIdx_cons, Nat.add_zero]
    split
    · simp only [ih, shift]
    · simp only [ih, shift, visit_key]

end Pass

end BraveRotator
