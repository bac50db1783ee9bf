import Mathlib.Algebra.Order.Monoid.Defs
import Mathlib.Algebra.Order.Monoid.Unbundled.Basic
import Mathlib.Data.List.TakeWhile
import Mathlib.Tactic.Common

/-! A log of timestamps, oldest first, pruned lazily to a sliding window. -/

namespace SlidingWindow

variable {τ : Type*} [Add τ] [LinearOrder τ]

/-- The timestamps of `history` less than `width` old at `now`. -/
def recent (width now : τ) (history : List τ) : Nat := history.countP fun t => now < t + width

/-- `live` is what is left of `history` after pruning that has dropped expired entries only. -/
structure Tracks (width now : τ) (history live : List τ) : Prop where
  dropped : ∃ old, history = old ++ live ∧ ∀ t ∈ old, t + width ≤ now
  sorted : live.Pairwise (· ≤ ·)
  past : ∀ t ∈ live, t ≤ now

theorem Tracks.nil (width now : τ) : Tracks width now [] [] :=
  ⟨⟨[], rfl, by simp⟩, .nil, by simp⟩

theorem Tracks.advance {width now later : τ} {history live : List τ}
    (tracks : Tracks width now history live) (le : now ≤ later) :
    Tracks width later history live := by
  obtain ⟨old, split, expired⟩ := tracks.dropped
  exact ⟨⟨old, split, fun t member => (expired t member).trans le⟩, tracks.sorted,
    fun t member => (tracks.past t member).trans le⟩

theorem Tracks.prune {width now : τ} {history live : List τ}
    (tracks : Tracks width now history live) :
    Tracks width now history (live.dropWhile fun t => t + width ≤ now) := by
  obtain ⟨old, split, expired⟩ := tracks.dropped
  have cut := List.takeWhile_append_dropWhile (p := fun t => decide (t + width ≤ now)) (l := live)
  have sublist : (live.dropWhile fun t => t + width ≤ now).Sublist live := List.dropWhile_sublist _
  refine ⟨⟨old ++ live.takeWhile fun t => t + width ≤ now, ?_, ?_⟩,
    tracks.sorted.sublist sublist, fun t member => tracks.past t (sublist.subset member)⟩
  · rw [List.append_assoc, cut, split]
  · intro t member
    rcases List.mem_append.mp member with member | member
    · exact expired t member
    · simpa using List.mem_takeWhile_imp member

theorem Tracks.push {width now : τ} {history live : List τ}
    (tracks : Tracks width now history live) :
    Tracks width now (history ++ [now]) (live ++ [now]) := by
  obtain ⟨old, split, expired⟩ := tracks.dropped
  refine ⟨⟨old, by rw [split, List.append_assoc], expired⟩, ?_, ?_⟩
  · rw [List.pairwise_append]
    refine ⟨tracks.sorted, List.pairwise_singleton _ _, ?_⟩
    intro t member last same
    rw [List.mem_singleton.mp same]
    exact tracks.past t member
  · intro t member
    rcases List.mem_append.mp member with member | member
    · exact tracks.past t member
    · exact (List.mem_singleton.mp member).le

theorem recent_of_head [AddRightMono τ] {width now : τ} {live : List τ}
    (sorted : live.Pairwise (· ≤ ·)) (front : ∀ t ∈ live.head?, now < t + width) :
    ∀ t ∈ live, now < t + width := by
  cases live with
  | nil => simp
  | cons first rest =>
    have fresh : now < first + width := front first rfl
    intro t member
    rcases List.mem_cons.mp member with rfl | member
    · exact fresh
    · exact fresh.trans_le (by gcongr; exact (List.pairwise_cons.mp sorted).1 t member)

theorem head_dropWhile {width now : τ} (live : List τ) :
    ∀ t ∈ (live.dropWhile fun t => decide (t + width ≤ now)).head?, now < t + width := by
  intro t member
  have kept := List.head?_dropWhile_not (fun t => decide (t + width ≤ now)) live
  rw [Option.mem_def.mp member] at kept
  simpa using kept

theorem Tracks.recent_live {width now : τ} {history live : List τ}
    (tracks : Tracks width now history live) :
    recent width now history = recent width now live := by
  obtain ⟨old, split, expired⟩ := tracks.dropped
  have none : old.countP (fun t => decide (now < t + width)) = 0 := by
    rw [List.countP_eq_zero]
    intro t member
    simpa using expired t member
  rw [recent, split, List.countP_append, none, Nat.zero_add, recent]

theorem recent_eq_length [AddRightMono τ] {width now : τ} {live : List τ}
    (sorted : live.Pairwise (· ≤ ·)) :
    recent width now live = (live.dropWhile fun t => t + width ≤ now).length := by
  have cut := List.takeWhile_append_dropWhile (p := fun t => decide (t + width ≤ now)) (l := live)
  have rest := sorted.sublist (List.dropWhile_sublist fun t => decide (t + width ≤ now))
  have none : (live.takeWhile fun t => t + width ≤ now).countP
      (fun t => decide (now < t + width)) = 0 := by
    rw [List.countP_eq_zero]
    intro t member
    simpa using List.mem_takeWhile_imp member
  have all : (live.dropWhile fun t => t + width ≤ now).countP
      (fun t => decide (now < t + width)) =
        (live.dropWhile fun t => t + width ≤ now).length := by
    rw [List.countP_eq_length]
    intro t member
    simpa using recent_of_head rest (head_dropWhile live) t member
  calc recent width now live
      = (live.takeWhile (fun t => decide (t + width ≤ now)) ++
          live.dropWhile fun t => decide (t + width ≤ now)).countP
            (fun t => decide (now < t + width)) := by rw [cut, recent]
    _ = _ := by rw [List.countP_append, none, all, Nat.zero_add]

theorem recent_concat (width now : τ) (history : List τ) (fresh : now < now + width) :
    recent width now (history ++ [now]) = recent width now history + 1 := by
  simp [recent, List.countP_append, fresh]

end SlidingWindow
