import BraveRotator.Model.Turnstile
import BraveRotator.Pool.Waiting

namespace BraveRotator

def QueueEvent.time : QueueEvent → Instant := Turnstile.Event.time Call.time

namespace Pool

theorem acquire_succ (p : Pool) (c : AcquireCall) (fuel : Nat) (now : Instant) :
    p.acquire c.deadline c.request (fuel + 1) now =
      match p.acquireTurn now c with
      | (q, .ends result) => some (q, now, result)
      | (q, .sleeps u) => q.acquire c.deadline c.request fuel (max now u) := by
  unfold acquireTurn
  rw [acquire]
  rcases p.tryAcquire now c.request with ⟨q, (u | ⟨earliest, summary⟩) | lease⟩
  · dsimp only
    split <;> rfl
  · rfl
  · rfl

theorem acquireTurn_bounded : Turnstile.Bounded acquireTurn := by
  intro p now c p' u turned
  have refused : (p.attempt c.request now).2 = .retryAt u ∧ u ≤ c.deadline := by
    unfold acquireTurn at turned
    unfold attempt
    rcases tried : p.tryAcquire now c.request with ⟨q, (v | ⟨earliest, summary⟩) | lease⟩
    · simp only [tried] at turned
      by_cases past : c.deadline < v
      · rw [if_pos past] at turned
        cases turned
      · rw [if_neg past] at turned
        cases turned
        exact ⟨rfl, Nat.le_of_not_lt past⟩
    · simp only [tried] at turned
      cases turned
    · simp only [tried] at turned
      cases turned
  exact ⟨attempt_future refused.1, refused.2⟩

/-- The run is one that can happen, sleeps being exact. -/
structure Plays (p : Pool) (es : List QueueEvent) : Prop where
  ordered : Runs.Ordered QueueEvent.time 0 es
  punctual : Runs.Along (Turnstile.step acquireTurn step) (Turnstile.Punctual Call.time) (.free p) es

/-- All calls of `acquire` have returned, in the order they were made in, and each no later than the
    later of the moment it was made and its own deadline. -/
def ReturnInTime (p : Pool) (es : List QueueEvent) : Prop :=
  (p.queueing es).returned.map Turnstile.Returned.ticket = es.filterMap Turnstile.Event.ticket? ∧
    ∀ r ∈ (p.queueing es).returned, r.time ≤ max r.ticket.made r.ticket.deadline

/-- Nobody ever queues behind a call that sleeps past the deadline of the one behind. -/
def NeverOutslept (p : Pool) (es : List QueueEvent) : Prop :=
  ∀ seen rest, es = seen ++ rest → Turnstile.NoneOutslept (p.queueing seen)

theorem returned_of_free (p : Pool) {es : List QueueEvent}
    (ended : (p.queueing es).holder = none) :
    (p.queueing es).returned.map Turnstile.Returned.ticket = es.filterMap Turnstile.Event.ticket? := by
  have held : Turnstile.Held (p.queueing es) :=
    Turnstile.held_run acquireTurn_bounded (Turnstile.State.free_held p) es
  have accounts : (p.queueing es).returned.map Turnstile.Returned.ticket ++ (p.queueing es).waiting =
      [] ++ es.filterMap Turnstile.Event.ticket? :=
    Turnstile.accounts_run acquireTurn_bounded (Turnstile.State.free p) es
  rw [held.waiting_nil ended, List.append_nil, List.nil_append] at accounts
  exact accounts

theorem inTime_iff_of_free {p : Pool} {es : List QueueEvent} (plays : p.Plays es)
    (ended : (p.queueing es).holder = none) : p.ReturnInTime es ↔ p.NeverOutslept es := by
  have inTime : Turnstile.OnTime (p.queueing es) ↔ p.NeverOutslept es :=
    Turnstile.onTime_iff acquireTurn_bounded plays.ordered plays.punctual ended
  rw [← inTime]
  exact and_iff_right (p.returned_of_free ended)

/-- Every run goes on to one after which nobody waits for a key; there the calls have returned in time
    exactly when nobody was ever outslept. -/
theorem return_in_time_iff (p : Pool) (es : List QueueEvent) (plays : p.Plays es) :
    (∃ wakes, (∀ e ∈ wakes, e.ticket? = none) ∧ p.Plays (es ++ wakes) ∧
      (p.queueing (es ++ wakes)).holder = none) ∧
    ((p.queueing es).holder = none → (p.ReturnInTime es ↔ p.NeverOutslept es)) := by
  refine ⟨?_, inTime_iff_of_free plays⟩
  obtain ⟨ordered, punctual⟩ := plays
  have held : Turnstile.Held (p.queueing es) :=
    Turnstile.held_run acquireTurn_bounded (Turnstile.State.free_held p) es
  have ahead : ∀ w u, (p.queueing es).holder = some (w, u) → Runs.clock QueueEvent.time 0 es ≤ u :=
    Turnstile.ahead_run acquireTurn_bounded nofun ordered punctual
  obtain ⟨wakes, silent, later, exact', ended⟩ :
      Turnstile.RunsOut acquireTurn step Call.time (Runs.clock QueueEvent.time 0 es) (p.queueing es) :=
    Turnstile.runsOut acquireTurn_bounded held ahead
  refine ⟨wakes, silent, ⟨?_, ?_⟩, ?_⟩
  · rw [Runs.ordered_append]
    exact ⟨ordered, later⟩
  · rw [Runs.along_append]
    exact ⟨punctual, exact'⟩
  · rw [queueing, Runs.exec_append]
    exact ended

/-- Three clients and one key, each willing to wait for ten seconds. The third comes while the second
    sleeps. -/
def threeClients : List QueueEvent :=
  [.arrives 0 10000000000 [], .arrives 500000000 10500000000 [], .arrives 600000000 10600000000 [],
    .wakes 1100000000, .wakes 2200000000]

theorem three_clients_in_time :
    ((ofTests ["key"] []).queueing (threeClients.take 3)).waiting.length = 2 ∧
      (ofTests ["key"] []).ReturnInTime threeClients := by
  have plays : (ofTests ["key"] []).Plays threeClients := ⟨by decide, by decide⟩
  have never : (ofTests ["key"] []).NeverOutslept threeClients := by
    intro seen rest split
    have patient : (threeClients.filterMap Turnstile.Event.ticket?).Pairwise
        fun a b => a.deadline ≤ b.latest := by decide
    exact Turnstile.noneOutslept_of_arrivals acquireTurn_bounded patient split
  exact ⟨by decide, ((return_in_time_iff _ _ plays).2 (by decide)).mpr never⟩

/-- Where calls are willing to wait as long as the ones before them, as first attempts are, all return
    in time. -/
theorem return_in_time_of_patient (p : Pool) (es : List QueueEvent) (plays : p.Plays es)
    (ended : (p.queueing es).holder = none)
    (patient : (es.filterMap Turnstile.Event.ticket?).Pairwise fun a b => a.deadline ≤ b.latest) :
    p.ReturnInTime es := by
  rw [inTime_iff_of_free plays ended]
  exact fun seen rest split => Turnstile.noneOutslept_of_arrivals acquireTurn_bounded patient split

/-- One key, and clients that wait for ten seconds at most. The first two are served at 0 s and 2 s;
    the third sleeps until the hold of a 429 ends at 17 s, and the retry of the second, which it has
    until 12 s for, stands behind it. -/
def lateRetry : List QueueEvent :=
  [.arrives 0 10000000000 [], .arrives 2000000000 12000000000 [],
    .touches (.record 7000000000 0 (.response 429 (some { retryAfter := some 10 }) none)),
    .arrives 7000000000 10000000000 [0], .arrives 8000000000 18000000000 [],
    .touches (.record 9000000000 0 (.response 500 none none)), .arrives 9000000000 12000000000 [0],
    .wakes 17000000000]

theorem retry_returns_late :
    (ofTests ["key"] []).Plays lateRetry ∧ ((ofTests ["key"] []).queueing lateRetry).holder = none ∧
      ¬ (ofTests ["key"] []).ReturnInTime lateRetry := by
  refine ⟨⟨by decide, by decide⟩, by decide, ?_⟩
  intro inTime
  exact absurd inTime.2 (by decide)

end Pool

end BraveRotator
