import BraveRotator.Lib.SlidingWindow
import Mathlib.Data.List.Perm.Subperm
import Mathlib.Data.List.Induction
import Mathlib.Algebra.Order.Group.Defs

/-! A stream that keeps to a rate, and what is left of the rate where the stream arrives. -/

namespace SlidingWindow

/-- What arrives is what was sent, each at most once, and as `R` allows; some of it may get lost. -/
def Delivers {α β : Type*} (R : α → β → Prop) (sent : List α) (arrived : List β) : Prop :=
  ∃ pairs : List (α × β), (pairs.map Prod.fst).Subperm sent ∧ (pairs.map Prod.snd).Perm arrived ∧
    ∀ pair ∈ pairs, R pair.1 pair.2

theorem Delivers.countP_le {α β : Type*} {R : α → β → Prop} {sent : List α} {arrived : List β}
    (delivers : Delivers R sent arrived) {p : α → Bool} {q : β → Bool}
    (before : ∀ a b, R a b → q b = true → p a = true) : arrived.countP q ≤ sent.countP p := by
  obtain ⟨pairs, subperm, perm, related⟩ := delivers
  calc arrived.countP q
      = pairs.countP (q ∘ Prod.snd) := by rw [← perm.countP_eq, List.countP_map]
    _ ≤ pairs.countP (p ∘ Prod.fst) := by
        apply List.countP_mono_left
        intro pair member
        exact before pair.1 pair.2 (related pair member)
    _ = (pairs.map Prod.fst).countP p := by rw [List.countP_map]
    _ ≤ sent.countP p := subperm.countP_le p

section Rate

variable {τ : Type*} [LinearOrder τ]

/-- Each timestamp is at most the `limit`-th within the window that ends at it. -/
def Limited [Add τ] (width : τ) (limit : Nat) (history : List τ) : Prop :=
  ∀ past now, past ++ [now] <+: history → recent width now (past ++ [now]) ≤ limit

section Add

variable [Add τ] {width now : τ} {limit : Nat} {history : List τ}

theorem limited_nil : Limited width limit [] := by
  intro past now inside
  simp at inside

theorem Limited.concat (limited : Limited width limit history)
    (last : recent width now (history ++ [now]) ≤ limit) : Limited width limit (history ++ [now]) := by
  intro past t inside
  rcases List.prefix_concat_iff.mp inside with same | inside
  · obtain ⟨rfl, final⟩ := List.append_inj' same rfl
    cases final
    exact last
  · exact limited past t inside

theorem Limited.shorter {whole : List τ} (limited : Limited width limit whole)
    (part : history <+: whole) : Limited width limit history :=
  fun past t inside => limited past t (inside.trans part)

/-- Wherever the window lies, no more than the limit are in it. -/
theorem Limited.countP_le (limited : Limited width limit history) {p : τ → Bool}
    (close : ∀ s t, p s = true → p t = true → t < s + width) : history.countP p ≤ limit := by
  induction history using List.reverseRecOn with
  | nil => exact Nat.zero_le _
  | append_singleton history now ih =>
    by_cases last : p now = true
    · calc (history ++ [now]).countP p
          ≤ recent width now (history ++ [now]) := by
            apply List.countP_mono_left
            intro t _ inside
            exact decide_eq_true (close t now inside last)
        _ ≤ limit := limited history now List.prefix_rfl
    · rw [List.countP_append, List.countP_singleton, if_neg last]
      exact ih (limited.shorter (List.prefix_append ..))

end Add

variable [AddCommMonoid τ] [IsOrderedCancelAddMonoid τ] {width least jitter : τ} {limit : Nat}
  {sent arrived : List τ}

/-- An arrival `b` of what was sent at `a`, after the least delay and at most the jitter more. -/
def Delayed (least jitter a b : τ) : Prop := a + least ≤ b ∧ b ≤ a + least + jitter

instance (least jitter a b : τ) : Decidable (Delayed least jitter a b) := instDecidableAnd

/-- A rate is kept on arrival if it is kept on sending for the jitter longer. -/
theorem Limited.delivered (limited : Limited (width + jitter) limit sent)
    (delivers : Delivers (Delayed least jitter) sent arrived) (ordered : arrived.Pairwise (· ≤ ·)) :
    Limited width limit arrived := by
  rintro past now ⟨rest, split⟩
  let p : τ → Bool := fun a => decide (a + least ≤ now ∧ now < a + least + jitter + width)
  let q : τ → Bool := fun b => decide (b ≤ now ∧ now < b + width)
  have passed : ∀ b ∈ past ++ [now], b ≤ now := by
    rw [← split, List.pairwise_append, List.pairwise_append] at ordered
    intro b member
    rcases List.mem_append.mp member with member | member
    · exact ordered.1.2.2 b member now (List.mem_singleton_self now)
    · exact (List.mem_singleton.mp member).le
  have close : ∀ s t, p s = true → p t = true → t < s + (width + jitter) := by
    intro s t first second
    have below := (of_decide_eq_true second).1.trans_lt (of_decide_eq_true first).2
    rw [add_right_comm s, add_right_comm _ least] at below
    rw [add_comm width, ← add_assoc]
    exact lt_of_add_lt_add_right below
  have before : ∀ a b, Delayed least jitter a b → q b = true → p a = true := by
    rintro a b ⟨late, soon⟩ inside
    obtain ⟨le, within⟩ := of_decide_eq_true inside
    exact decide_eq_true ⟨late.trans le, within.trans_le (add_le_add_left soon width)⟩
  calc recent width now (past ++ [now])
      ≤ (past ++ [now]).countP q := by
        apply List.countP_mono_left
        intro b member inside
        exact decide_eq_true ⟨passed b member, of_decide_eq_true inside⟩
    _ ≤ arrived.countP q := by
        rw [← split]
        exact (List.sublist_append_left _ rest).countP_le
    _ ≤ sent.countP p := delivers.countP_le before
    _ ≤ limit := limited.countP_le close

/-- A limiter with a log of what it has let through has room for what keeps to the rate. -/
theorem Tracks.room {history live past : List τ} {now : τ} (tracks : Tracks width now history live)
    (part : history.Sublist past) (positive : 0 < width)
    (limited : recent width now (past ++ [now]) ≤ limit) :
    (live.dropWhile fun t => t + width ≤ now).length < limit := by
  calc (live.dropWhile fun t => t + width ≤ now).length
      = recent width now history := by
        rw [← recent_eq_length tracks.sorted, tracks.recent_live]
    _ ≤ recent width now past := part.countP_le
    _ < recent width now (past ++ [now]) := by
        rw [recent_concat width now past (lt_add_of_pos_right now positive)]
        exact Nat.lt_succ_self _
    _ ≤ limit := limited

end Rate

end SlidingWindow
