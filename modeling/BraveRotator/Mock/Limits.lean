import BraveRotator.Key.Effects
import BraveRotator.Lib.Delivery
import BraveRotator.Model.Mock
import BraveRotator.Proxy.PoolHeaders

namespace BraveRotator

open SlidingWindow

namespace Mock

/-- When requests with the key arrive. -/
def timesWith (key : String) (rs : List MockRequest) : List Instant :=
  (rs.filter (·.key = some key)).map MockRequest.now

theorem timesWith_append (key : String) (as bs : List MockRequest) :
    timesWith key (as ++ bs) = timesWith key as ++ timesWith key bs := by
  rw [timesWith, List.filter_append, List.map_append]
  rfl

theorem timesWith_sorted {key : String} {rs : List MockRequest}
    (ordered : Runs.Ordered MockRequest.now 0 rs) : (timesWith key rs).Pairwise (· ≤ ·) := by
  have sorted := (List.pairwise_cons.mp ordered.sorted).2
  exact sorted.sublist (List.filter_sublist.map _)

theorem timesWith_concat (key : String) (rs : List MockRequest) (r : MockRequest) :
    timesWith key (rs ++ [r]) = timesWith key rs ++ if r.key = some key then [r.now] else [] := by
  rw [timesWith_append]
  by_cases own : r.key = some key <;> simp [timesWith, own]

end Mock

/-- A request too many within a second. -/
def MockReply.TooFast (reply : MockReply) : Prop := reply.body = .error "Rate limit exceeded"

namespace Mock

/-- What a request does to the logs. -/
inductive Handled (m : Mock) (r : MockRequest) (m' : Mock) (reply : MockReply) : Prop
  | turnedAway (sends : m'.sends = m.sends) (other : ¬ reply.TooFast) : Handled m r m' reply
  | spent (key : String) (own : r.key = some key)
      (sends : m'.sends =
        Function.update m.sends key ((m.sends key).dropWhile fun t => t + window ≤ r.now))
      (full : reply.TooFast →
        m.rps ≤ ((m.sends key).dropWhile fun t => t + window ≤ r.now).length) :
      Handled m r m' reply
  | served (key : String) (own : r.key = some key)
      (sends : m'.sends = Function.update m.sends key
        ((m.sends key).dropWhile (fun t => t + window ≤ r.now) ++ [r.now]))
      (other : ¬ reply.TooFast) : Handled m r m' reply

section Logs

variable {m : Mock} {r : MockRequest} {rs : List MockRequest} {now : Instant}

theorem answer_handled (m : Mock) (r : MockRequest) :
    m.Handled r (m.answer r).1 (m.answer r).2 := by
  unfold answer
  split
  · exact .turnedAway rfl (by simp [MockReply.TooFast])
  · cases kept : r.key.filter (!isBad ·) with
    | none => exact .turnedAway rfl (by simp [MockReply.TooFast])
    | some key =>
      have own : r.key = some key := (Option.filter_eq_some_iff.mp kept).1
      dsimp only
      unfold limit
      dsimp only
      split
      · exact .turnedAway rfl (by simp [MockReply.TooFast])
      · split
        · exact .spent key own rfl (by simp [MockReply.TooFast])
        · split
          · rename_i full
            rw [Function.update_self] at full
            exact .spent key own rfl fun _ => full
          · refine .served key own ?_ (by simp [MockReply.TooFast])
            simp only [Function.update_self, Function.update_idem]

theorem Handled.congr {m' m'' : Mock} {reply : MockReply} (handled : m.Handled r m' reply)
    (same : m''.sends = m'.sends) : m.Handled r m'' reply := by
  cases handled with
  | turnedAway sends other => exact .turnedAway (same.trans sends) other
  | spent key own sends full => exact .spent key own (same.trans sends) full
  | served key own sends other => exact .served key own (same.trans sends) other

/-- The one account of what a request does to the logs. -/
theorem handle_handled (m : Mock) (r : MockRequest) : m.Handled r (m.handle r).1 (m.handle r).2 := by
  unfold handle
  split
  · exact (m.answer_handled r).congr rfl
  · exact .turnedAway rfl (by simp [MockReply.TooFast])

theorem answer_rps (m : Mock) (r : MockRequest) : (m.answer r).1.rps = m.rps := by
  unfold answer limit
  split
  · rfl
  · split
    · rfl
    · dsimp only
      split
      · rfl
      · split
        · rfl
        · split <;> rfl

theorem step_rps (m : Mock) (r : MockRequest) : (m.step r).rps = m.rps := by
  unfold step handle
  split
  · exact m.answer_rps r
  · rfl

/-- The log of each key is what is left of the times at which it was let through. -/
def Logs (m : Mock) (rs : List MockRequest) (now : Instant) : Prop :=
  ∀ key, ∃ accepted, accepted.Sublist (timesWith key rs) ∧ Tracks window now accepted (m.sends key)

theorem Logs.step (logs : m.Logs rs now) (le : now ≤ r.now) : (m.step r).Logs (rs ++ [r]) r.now := by
  intro key
  obtain ⟨accepted, part, tracks⟩ := logs key
  replace tracks := tracks.advance le
  rw [timesWith_concat]
  have more : accepted.Sublist (timesWith key rs ++ if r.key = some key then [r.now] else []) :=
    part.trans (List.sublist_append_left ..)
  have handled := m.handle_handled r
  rw [Mock.step]
  generalize (m.handle r).1 = m', (m.handle r).2 = reply at handled
  cases handled with
  | turnedAway sends other =>
    rw [sends]
    exact ⟨accepted, more, tracks⟩
  | spent key' own sends full =>
    rw [sends]
    by_cases same : key' = key
    · subst same
      rw [Function.update_self]
      exact ⟨accepted, more, tracks.prune⟩
    · rw [Function.update_of_ne (Ne.symm same)]
      exact ⟨accepted, more, tracks⟩
  | served key' own sends other =>
    rw [sends]
    by_cases same : key' = key
    · subst same
      rw [Function.update_self, if_pos own]
      exact ⟨accepted ++ [r.now], part.append (List.Sublist.refl _), tracks.prune.push⟩
    · rw [Function.update_of_ne (Ne.symm same)]
      exact ⟨accepted, more, tracks⟩

theorem logs_run (ordered : Runs.Ordered MockRequest.now 0 rs) (fresh : m.sends = fun _ => []) :
    (m.after rs).Logs rs (Runs.clock MockRequest.now 0 rs) := by
  induction rs using List.reverseRecOn with
  | nil =>
    intro key
    refine ⟨[], List.Sublist.refl _, ?_⟩
    show Tracks window 0 [] (m.sends key)
    rw [fresh]
    exact .nil _ _
  | append_singleton rs r ih =>
    obtain ⟨past, le, -⟩ := (Runs.ordered_append MockRequest.now 0 rs [r]).mp ordered
    rw [after, Runs.exec_append, Runs.clock_append]
    exact (ih past).step le

theorem after_rps (m : Mock) (rs : List MockRequest) : (m.after rs).rps = m.rps :=
  Runs.exec_invariant' (I := fun m' : Mock => m'.rps = m.rps)
    (fun m' r same => (m'.step_rps r).trans same) rs rfl

/-- Whoever keeps to the rate is not told to slow down. -/
theorem not_tooFast_of_limited (ordered : Runs.Ordered MockRequest.now 0 (rs ++ [r]))
    (fresh : m.sends = fun _ => [])
    (limited : ∀ key, Limited window m.rps (timesWith key (rs ++ [r]))) :
    ¬ ((m.after rs).handle r).2.TooFast := by
  intro tooFast
  obtain ⟨past, le, -⟩ := (Runs.ordered_append MockRequest.now 0 rs [r]).mp ordered
  have logs := logs_run past fresh
  have handled := (m.after rs).handle_handled r
  cases handled with
  | turnedAway sends other => exact other tooFast
  | served key own sends other => exact other tooFast
  | spent key own sends full =>
    obtain ⟨accepted, part, tracks⟩ := logs key
    have kept := limited key
    rw [timesWith_concat, if_pos own] at kept
    have room := (tracks.advance le).room part (by decide) (kept _ r.now List.prefix_rfl)
    have none := full tooFast
    rw [after_rps] at none
    exact absurd room (Nat.not_lt.mpr none)

end Logs

end Mock

/-- A reply as the headers of a response. -/
structure MockReply.Comes (reply : MockReply) (status : Nat) (headers : HeaderMap) : Prop where
  status : status = reply.status
  rateLimit : ∀ name ∈ ["x-ratelimit-limit", "x-ratelimit-remaining", "x-ratelimit-reset",
    "x-ratelimit-policy"],
    headers.get? name = (reply.headers.lookup name).map fun text => HeaderValue.utf8 text.toList

section Reported

theorem fromHeaders_limit {h : HeaderMap} {rl : RateLimitInfo}
    (read : RateLimitInfo.fromHeaders h = some rl) :
    rl.limit = (((h.get? "x-ratelimit-limit").bind HeaderValue.toStr).map parseWindows).getD {} := by
  unfold RateLimitInfo.fromHeaders at read
  dsimp only at read
  split at read
  · cases read
  · cases read
    rfl

theorem toStr_utf8 {s : List Char} (plain : ∀ c ∈ s, HeaderValue.Plain c) :
    HeaderValue.toStr (HeaderValue.utf8 s) = some s := by
  obtain ⟨v, written, read⟩ := HeaderValue.toStr_of_plain plain
  unfold HeaderValue.fromStr at written
  split at written
  · cases written
    exact read
  · cases written

theorem read_limit (rps month : Nat) :
    ((HeaderValue.toStr (HeaderValue.utf8 s!"{rps}, {month}".toList)).map parseWindows).getD {} =
      { second := parseU64 rps.repr.toList, month := parseU64 month.repr.toList } := by
  have written : s!"{rps}, {month}".toList =
      joined rps.repr.toList (' ' :: month.repr.toList) [] := by
    unfold joined
    simp only [String.toList_append, toString, List.append_assoc, List.flatMap_nil, List.append_nil]
    rfl
  have digits : ∀ n : Nat, ∀ c ∈ n.repr.toList, c = '?' ∨ c.isDigit = true :=
    fun _ _ member => .inr (Text.isDigit_of_mem_repr member)
  have plain : ∀ c ∈ s!"{rps}, {month}".toList, HeaderValue.Plain c := by
    intro c member
    rw [written, joined, List.flatMap_nil, List.append_nil, List.mem_append, List.mem_cons,
      List.mem_cons] at member
    rcases member with member | rfl | rfl | member
    · exact plain_of_digit (digits rps c member)
    · exact ⟨by decide, by decide⟩
    · exact ⟨by decide, by decide⟩
    · exact plain_of_digit (digits month c member)
  rw [toStr_utf8 plain, Option.map_some, Option.getD_some, written]
  exact parseWindows_pair (fun c member => solid_of_digit (digits rps c member))
    fun c member => solid_of_digit (digits month c member)

theorem Mock.answer_headers (m : Mock) (r : MockRequest) :
    (m.answer r).2.headers.lookup "x-ratelimit-limit" = none ∨
      (m.answer r).2.headers.lookup "x-ratelimit-limit" = some s!"{m.rps}, {m.month}" := by
  unfold answer limit
  split
  · exact .inl rfl
  · split
    · exact .inl rfl
    · dsimp only
      split
      · exact .inl rfl
      · split
        · exact .inr rfl
        · split
          · exact .inr rfl
          · exact .inr rfl

theorem Mock.reply_headers (m : Mock) (r : MockRequest) :
    (m.handle r).2.headers.lookup "x-ratelimit-limit" = none ∨
      (m.handle r).2.headers.lookup "x-ratelimit-limit" = some s!"{m.rps}, {m.month}" := by
  unfold handle
  split
  · exact m.answer_headers r
  · exact .inl rfl

/-- What the pool learns from a reply is no more than it keeps to. -/
theorem learned_le_of_comes {m : Mock} {r : MockRequest} {up : UpstreamResponse} {l : Nat}
    (comes : (m.handle r).2.Comes up.status up.headers) (learned : up.outcome.learned? = some l) :
    l ≤ m.rps := by
  have header := comes.rateLimit "x-ratelimit-limit" List.mem_cons_self
  unfold UpstreamResponse.outcome Outcome.learned? at learned
  cases read : RateLimitInfo.fromHeaders up.headers with
  | none =>
    rw [read] at learned
    cases learned
  | some rl =>
    rw [read] at learned
    dsimp only at learned
    have limit := fromHeaders_limit read
    rcases m.reply_headers r with named | named
    · rw [header, named] at limit
      rw [limit] at learned
      cases learned
    · rw [header, named, Option.map_some, Option.bind_some, read_limit] at limit
      rw [limit] at learned
      obtain ⟨n, kept, rfl⟩ := Option.map_eq_some_iff.mp learned
      have number := (Option.filter_eq_some_iff.mp kept).1
      by_cases small : m.rps ≤ u64Max
      · rw [parseU64_repr small] at number
        cases number
        exact min_le_left _ _
      · have large : maxLearnedRps ≤ m.rps := (by decide : maxLearnedRps ≤ u64Max).trans
          (Nat.le_of_not_le small)
        exact (min_le_right _ _).trans large

end Reported

end BraveRotator
