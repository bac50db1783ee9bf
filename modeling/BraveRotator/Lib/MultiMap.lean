import Mathlib.Data.List.Nodup
import Mathlib.Tactic.Common

/-! Maps from names to one value or more. They are read in the order in which the names came in, and
    all values of a name together. -/

structure Bucket (κ ν : Type*) where
  name : κ
  first : ν
  more : List ν := []
  deriving DecidableEq

@[ext] structure MultiMap (κ ν : Type*) where
  buckets : List (Bucket κ ν)
  nodup : (buckets.map Bucket.name).Nodup
  deriving DecidableEq

namespace Bucket

variable {κ ν : Type*}

def values (b : Bucket κ ν) : List ν := b.first :: b.more

def entries (b : Bucket κ ν) : List (κ × ν) := b.values.map (b.name, ·)

@[simp] theorem fst_of_mem_entries {b : Bucket κ ν} {e : κ × ν} (member : e ∈ b.entries) :
    e.1 = b.name := by
  obtain ⟨v, -, rfl⟩ := List.mem_map.mp member
  rfl

variable [DecidableEq κ] (name : κ) (v : ν) (f : Bucket κ ν → Bucket κ ν)

/-- The bucket of the name changed, or a new one put at the end. -/
def put : List (Bucket κ ν) → List (Bucket κ ν)
  | [] => [{ name, first := v }]
  | b :: bs => if b.name = name then f b :: bs else b :: put bs

def push (b : Bucket κ ν) : Bucket κ ν := { b with more := b.more ++ [v] }

def replace (b : Bucket κ ν) : Bucket κ ν := { b with first := v, more := [] }

variable {name v f} {bs : List (Bucket κ ν)}

theorem put_of_notMem (absent : name ∉ bs.map Bucket.name) :
    put name v f bs = bs ++ [{ name, first := v }] := by
  induction bs with
  | nil => rfl
  | cons b bs ih =>
    rw [List.map_cons, List.mem_cons, not_or] at absent
    rw [put, if_neg (Ne.symm absent.1), ih absent.2, List.cons_append]

theorem put_append_singleton {b : Bucket κ ν} (absent : b.name ∉ bs.map Bucket.name) :
    put b.name v f (bs ++ [b]) = bs ++ [f b] := by
  induction bs with
  | nil => exact if_pos rfl
  | cons b' bs ih =>
    rw [List.map_cons, List.mem_cons, not_or] at absent
    rw [List.cons_append, put, if_neg (Ne.symm absent.1), ih absent.2, List.cons_append]

theorem names_put (keeps : ∀ b, (f b).name = b.name) :
    (put name v f bs).map Bucket.name =
      if name ∈ bs.map Bucket.name then bs.map Bucket.name else bs.map Bucket.name ++ [name] := by
  induction bs with
  | nil => rfl
  | cons b bs ih =>
    by_cases same : b.name = name
    · rw [put, if_pos same, List.map_cons, keeps, List.map_cons, if_pos (by rw [same]; simp)]
    · rw [put, if_neg same, List.map_cons, ih, List.map_cons]
      by_cases member : name ∈ bs.map Bucket.name
      · rw [if_pos member, if_pos (List.mem_cons_of_mem _ member)]
      · rw [if_neg member, if_neg (by rw [List.mem_cons, not_or]; exact ⟨Ne.symm same, member⟩)]
        rfl

theorem nodup_put (keeps : ∀ b, (f b).name = b.name) (nodup : (bs.map Bucket.name).Nodup) :
    ((put name v f bs).map Bucket.name).Nodup := by
  rw [names_put keeps]
  by_cases member : name ∈ bs.map Bucket.name
  · rw [if_pos member]
    exact nodup
  · rw [if_neg member, List.nodup_append]
    refine ⟨nodup, List.nodup_singleton _, ?_⟩
    intro a left b right same
    rw [List.mem_singleton.mp right] at same
    exact member (same ▸ left)

theorem find?_put_self (keeps : ∀ b, (f b).name = b.name) :
    (put name v f bs).find? (·.name = name) =
      some (((bs.find? (·.name = name)).map f).getD { name, first := v }) := by
  induction bs with
  | nil => simp [put]
  | cons b bs ih =>
    by_cases same : b.name = name
    · simp [put, same, keeps]
    · simp [put, same, ih]

theorem find?_put_of_ne {other : κ} (keeps : ∀ b, (f b).name = b.name) (ne : other ≠ name) :
    (put name v f bs).find? (·.name = other) = bs.find? (·.name = other) := by
  induction bs with
  | nil => simp [put, ne.symm]
  | cons b bs ih =>
    by_cases same : b.name = name
    · simp [put, same, keeps, ne.symm]
    · rw [put, if_neg same, List.find?_cons, List.find?_cons, ih]

theorem filter_put {p : κ → Bool} (keeps : ∀ b, (f b).name = b.name) (drops : p name = false) :
    (put name v f bs).filter (fun b => p b.name) = bs.filter fun b => p b.name := by
  induction bs with
  | nil => simp [put, drops]
  | cons b bs ih =>
    by_cases same : b.name = name
    · simp [put, same, keeps, drops]
    · rw [put, if_neg same, List.filter_cons, List.filter_cons, ih]

end Bucket

namespace MultiMap

variable {κ ν : Type*}

def empty : MultiMap κ ν := { buckets := [], nodup := List.nodup_nil }

def entries (m : MultiMap κ ν) : List (κ × ν) := m.buckets.flatMap Bucket.entries

section Names

variable [DecidableEq κ] (m : MultiMap κ ν) (name : κ) (v : ν)

def get? : Option ν := (m.buckets.find? (·.name = name)).map Bucket.first

def contains : Bool := m.buckets.any (·.name = name)

def append : MultiMap κ ν where
  buckets := Bucket.put name v (Bucket.push v) m.buckets
  nodup := Bucket.nodup_put (fun _ => rfl) m.nodup

def insert : MultiMap κ ν where
  buckets := Bucket.put name v (Bucket.replace v) m.buckets
  nodup := Bucket.nodup_put (fun _ => rfl) m.nodup

/-- The entries whose names meet `p`, appended one by one to an empty map. -/
def copy (p : κ → Bool) : MultiMap κ ν :=
  (m.entries.filter fun e => p e.1).foldl (fun m e => m.append e.1 e.2) empty

end Names

section Names

variable [DecidableEq κ] {m : MultiMap κ ν} {name other : κ} {v : ν}

theorem buckets_append :
    (m.append name v).buckets = Bucket.put name v (Bucket.push v) m.buckets := rfl

theorem buckets_insert :
    (m.insert name v).buckets = Bucket.put name v (Bucket.replace v) m.buckets := rfl

@[simp] theorem get?_insert_self : (m.insert name v).get? name = some v := by
  have found : (m.insert name v).buckets.find? (·.name = name) =
      some (((m.buckets.find? (·.name = name)).map (Bucket.replace v)).getD { name, first := v }) :=
    Bucket.find?_put_self fun _ => rfl
  unfold get?
  rw [found]
  cases m.buckets.find? (·.name = name) <;> rfl

theorem get?_insert_of_ne (ne : other ≠ name) : (m.insert name v).get? other = m.get? other := by
  have found : (m.insert name v).buckets.find? (·.name = other) =
      m.buckets.find? (·.name = other) := Bucket.find?_put_of_ne (fun _ => rfl) ne
  unfold get?
  rw [found]

theorem contains_iff : m.contains name = true ↔ name ∈ m.buckets.map Bucket.name := by
  unfold contains
  rw [List.any_eq_true, List.mem_map]
  constructor
  · rintro ⟨b, member, same⟩
    exact ⟨b, member, of_decide_eq_true same⟩
  · rintro ⟨b, member, same⟩
    exact ⟨b, member, decide_eq_true same⟩

theorem contains_eq_any : m.contains name = m.entries.any (·.1 = name) := by
  unfold contains entries
  rw [List.any_flatMap]
  apply List.any_congr rfl
  intro b
  unfold Bucket.entries Bucket.values
  rw [List.any_map, List.any_cons]
  by_cases same : b.name = name
  · simp [same]
  · simp [same]

theorem entries_insert_of_notContains (absent : m.contains name = false) :
    (m.insert name v).entries = m.entries ++ [(name, v)] := by
  have notMem : name ∉ m.buckets.map Bucket.name := by
    rw [← contains_iff, absent]
    exact Bool.false_ne_true
  unfold entries
  rw [buckets_insert, Bucket.put_of_notMem notMem, List.flatMap_append]
  rfl

/-- The entry to add for a name, if there is none among the entries given. -/
def missing (es : List (κ × ν)) (name : κ) (v : ν) : List (κ × ν) :=
  if es.any (·.1 = name) then [] else [(name, v)]

theorem fst_of_mem_missing {es : List (κ × ν)} {e : κ × ν} (member : e ∈ missing es name v) :
    e.1 = name := by
  unfold missing at member
  split at member
  · cases member
  · rw [List.mem_singleton.mp member]

theorem missing_append {es more : List (κ × ν)} (others : ∀ e ∈ more, e.1 ≠ name) :
    missing (es ++ more) name v = missing es name v := by
  have none : more.any (·.1 = name) = false := by
    rw [List.any_eq_false]
    exact fun e member same => others e member (of_decide_eq_true same)
  unfold missing
  rw [List.any_append, none, Bool.or_false]

theorem entries_insert_missing (m : MultiMap κ ν) (name : κ) (v : ν) :
    (if m.contains name then m else m.insert name v).entries =
      m.entries ++ missing m.entries name v := by
  unfold missing
  rw [← contains_eq_any]
  cases present : m.contains name with
  | true => exact (List.append_nil _).symm
  | false => exact entries_insert_of_notContains present

end Names

theorem filter_entries (bs : List (Bucket κ ν)) (p : κ → Bool) :
    (bs.flatMap Bucket.entries).filter (fun e => p e.1) =
      (bs.filter fun b => p b.name).flatMap Bucket.entries := by
  induction bs with
  | nil => rfl
  | cons b bs ih =>
    rw [List.flatMap_cons, List.filter_append, List.filter_cons, ih]
    by_cases passes : p b.name = true
    · have all : b.entries.filter (fun e => p e.1) = b.entries := by
        rw [List.filter_eq_self]
        intro e member
        rw [Bucket.fst_of_mem_entries member, passes]
      rw [all, if_pos passes, List.flatMap_cons]
    · have none : b.entries.filter (fun e => p e.1) = [] := by
        rw [List.filter_eq_nil_iff]
        intro e member
        rw [Bucket.fst_of_mem_entries member]
        exact passes
      rw [none, if_neg passes, List.nil_append]

theorem filter_entries_insert [DecidableEq κ] {m : MultiMap κ ν} {name : κ} {v : ν} {p : κ → Bool}
    (drops : p name = false) :
    (m.insert name v).entries.filter (fun e => p e.1) = m.entries.filter fun e => p e.1 := by
  unfold entries
  rw [filter_entries, filter_entries, buckets_insert,
    Bucket.filter_put (f := Bucket.replace v) (fun _ => rfl) drops]

/-- What is inserted is the only value of the name. -/
theorem filter_entries_insert_self [DecidableEq κ] {m : MultiMap κ ν} {name : κ} {v : ν} :
    (m.insert name v).entries.filter (fun e => e.1 = name) = [(name, v)] := by
  have only : ∀ bs : List (Bucket κ ν), (bs.map Bucket.name).Nodup →
      ((Bucket.put name v (Bucket.replace v) bs).filter fun b => b.name = name).flatMap Bucket.entries =
        [(name, v)] := by
    intro bs nodup
    induction bs with
    | nil => simp [Bucket.put, Bucket.entries, Bucket.values]
    | cons b bs ih =>
      rw [List.map_cons, List.nodup_cons] at nodup
      unfold Bucket.put
      by_cases same : b.name = name
      · have rest : bs.filter (fun b => decide (b.name = name)) = [] := by
          rw [List.filter_eq_nil_iff]
          intro b' member again
          apply nodup.1
          rw [same, ← of_decide_eq_true again]
          exact List.mem_map_of_mem member
        have kept : (Bucket.replace v b).name = name := same
        rw [if_pos same, List.filter_cons, if_pos (decide_eq_true kept), rest]
        simp [Bucket.entries, Bucket.values, Bucket.replace, same]
      · rw [if_neg same, List.filter_cons, if_neg (by simpa using same)]
        exact ih nodup.2
  unfold entries
  rw [filter_entries _ fun other => decide (other = name), buckets_insert]
  exact only m.buckets m.nodup

section Copy

variable [DecidableEq κ]

theorem foldl_append_bucket (m : MultiMap κ ν) (b : Bucket κ ν)
    (absent : b.name ∉ m.buckets.map Bucket.name) :
    (b.entries.foldl (fun m e => m.append e.1 e.2) m).buckets = m.buckets ++ [b] := by
  have more : ∀ (vs seen : List ν) (m' : MultiMap κ ν),
      m'.buckets = m.buckets ++ [{ b with more := seen }] →
      ((vs.map (b.name, ·)).foldl (fun m e => m.append e.1 e.2) m').buckets =
        m.buckets ++ [{ b with more := seen ++ vs }] := by
    intro vs
    induction vs with
    | nil =>
      intro seen m' same
      rw [List.append_nil]
      exact same
    | cons v vs ih =>
      intro seen m' same
      have next : (m'.append b.name v).buckets = m.buckets ++ [{ b with more := seen ++ [v] }] := by
        rw [buckets_append, same]
        exact Bucket.put_append_singleton (b := { b with more := seen }) absent
      have rest := ih (seen ++ [v]) _ next
      rw [List.append_assoc] at rest
      exact rest
  have first : (m.append b.name b.first).buckets = m.buckets ++ [{ b with more := [] }] := by
    rw [buckets_append, Bucket.put_of_notMem absent]
  exact more b.more [] _ first

theorem foldl_append_buckets (bs : List (Bucket κ ν)) (m : MultiMap κ ν)
    (nodup : ((m.buckets ++ bs).map Bucket.name).Nodup) :
    ((bs.flatMap Bucket.entries).foldl (fun m e => m.append e.1 e.2) m).buckets =
      m.buckets ++ bs := by
  induction bs generalizing m with
  | nil => exact (List.append_nil _).symm
  | cons b bs ih =>
    have absent : b.name ∉ m.buckets.map Bucket.name := by
      intro member
      rw [List.map_append, List.nodup_append] at nodup
      exact nodup.2.2 _ member _ List.mem_cons_self rfl
    have first := foldl_append_bucket m b absent
    rw [List.flatMap_cons, List.foldl_append, ih]
    · rw [first, List.append_assoc, List.singleton_append]
    · rw [first, List.append_assoc, List.singleton_append]
      exact nodup

theorem buckets_copy (m : MultiMap κ ν) (p : κ → Bool) :
    (m.copy p).buckets = m.buckets.filter fun b => p b.name := by
  unfold copy entries
  rw [filter_entries]
  apply foldl_append_buckets
  exact (List.filter_sublist.map Bucket.name).nodup m.nodup

@[simp] theorem entries_copy (m : MultiMap κ ν) (p : κ → Bool) :
    (m.copy p).entries = m.entries.filter fun e => p e.1 := by
  unfold entries
  rw [buckets_copy, filter_entries]

@[simp] theorem copy_true (m : MultiMap κ ν) : m.copy (fun _ => true) = m := by
  ext1
  rw [buckets_copy]
  exact List.filter_true m.buckets

end Copy

end MultiMap
