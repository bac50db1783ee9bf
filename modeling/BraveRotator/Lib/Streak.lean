import Mathlib.Algebra.Order.Ring.Nat
import Mathlib.Data.List.DropRight
import Mathlib.Tactic.Common

/-! Counters that some events advance, some set back to zero and the rest leave alone, told from the
    events so far, oldest first. -/

namespace Streak

variable {ε : Type*} (counts resets : ε → Bool)

/-- The events since the last one that resets. -/
def since (es : List ε) : List ε := es.rtakeWhile fun e => !resets e

def count (es : List ε) : Nat := (since resets es).countP counts

variable {counts resets} {es : List ε} {e : ε}

theorem since_concat (es : List ε) (e : ε) :
    since resets (es ++ [e]) = if resets e then [] else since resets es ++ [e] := by
  unfold since
  rw [List.rtakeWhile_concat]
  cases resets e <;> rfl

theorem count_concat (es : List ε) (e : ε) :
    count counts resets (es ++ [e]) =
      if resets e then 0 else count counts resets es + if counts e then 1 else 0 := by
  unfold count
  rw [since_concat]
  cases resets e with
  | true => rfl
  | false => exact List.countP_append.trans (congrArg _ List.countP_singleton)

def Neutral (counts resets : ε → Bool) (e : ε) : Prop := counts e = false ∧ resets e = false

theorem count_append_neutral {more : List ε} (neutral : ∀ e ∈ more, Neutral counts resets e) :
    count counts resets (es ++ more) = count counts resets es := by
  induction more using List.reverseRecOn with
  | nil => rw [List.append_nil]
  | append_singleton more e ih =>
    obtain ⟨still, kept⟩ := neutral e (List.mem_append_right _ List.mem_cons_self)
    rw [← List.append_assoc, count_concat, kept, still,
      ih fun e member => neutral e (List.mem_append_left _ member)]
    rfl

theorem count_append_cons {more : List ε} (counted : counts e = true) (kept : resets e = false)
    (neutral : ∀ e ∈ more, Neutral counts resets e) :
    count counts resets (es ++ e :: more) = count counts resets es + 1 := by
  have split : es ++ e :: more = (es ++ [e]) ++ more := by
    rw [List.append_assoc, List.singleton_append]
  rw [split, count_append_neutral neutral, count_concat, kept, counted]
  rfl

/-- A counter above zero was advanced by an event since which nothing has moved it. -/
theorem count_eq_succ_iff {n : Nat} :
    count counts resets es = n + 1 ↔
      ∃ before e more, es = before ++ e :: more ∧ counts e = true ∧ resets e = false ∧
        (∀ e ∈ more, Neutral counts resets e) ∧ count counts resets before = n := by
  constructor
  · intro reached
    induction es using List.reverseRecOn with
    | nil => cases reached
    | append_singleton es e ih =>
      rw [count_concat] at reached
      cases reset : resets e with
      | true =>
        rw [reset] at reached
        cases reached
      | false =>
        rw [reset] at reached
        cases counted : counts e with
        | true =>
          rw [counted] at reached
          exact ⟨es, e, [], rfl, counted, reset, fun e member => absurd member List.not_mem_nil,
            Nat.succ.inj reached⟩
        | false =>
          rw [counted] at reached
          obtain ⟨before, e', more, rfl, counts', kept, neutral, rest⟩ := ih reached
          refine ⟨before, e', more ++ [e], by rw [List.append_assoc, List.cons_append], counts', kept,
            ?_, rest⟩
          intro e'' member
          rcases List.mem_append.mp member with member | member
          · exact neutral e'' member
          · rw [List.mem_singleton.mp member]
            exact ⟨counted, reset⟩
  · rintro ⟨before, e, more, rfl, counted, kept, neutral, rest⟩
    rw [count_append_cons counted kept neutral, rest]

/-- Where the last two events are not among those behind two others, nothing is. -/
theorem adjacent_of_last_two {front before more more' : List ε} {a b x y : ε}
    (same : front ++ [x, y] = before ++ a :: (more ++ b :: more')) (first : x ∉ more)
    (second : y ∉ more') : more = [] ∧ more' = [] := by
  have backwards := congrArg List.reverse same
  simp only [List.reverse_append, List.reverse_cons, List.reverse_nil, List.nil_append,
    List.cons_append, List.append_assoc] at backwards
  cases tail : more'.reverse with
  | cons z zs =>
    rw [tail, List.cons_append, List.cons.injEq] at backwards
    exact absurd (List.mem_reverse.mp (tail ▸ backwards.1 ▸ List.mem_cons_self)) second
  | nil =>
    rw [tail, List.nil_append, List.cons.injEq] at backwards
    cases middle : more.reverse with
    | cons z zs =>
      rw [middle, List.cons_append, List.cons.injEq] at backwards
      exact absurd (List.mem_reverse.mp (middle ▸ backwards.2.1 ▸ List.mem_cons_self)) first
    | nil => exact ⟨List.reverse_eq_nil_iff.mp middle, List.reverse_eq_nil_iff.mp tail⟩

end Streak
