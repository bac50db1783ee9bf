import BraveRotator.Proxy.Failover
import BraveRotator.Server.Sessions

namespace BraveRotator

/-- What the output tells the client of call `i`. -/
def Output.tells? (i : Nat) : Output → Option ProxyResponse
  | .answered j response => if j = i then some response else none
  | _ => none

theorem Client.phase_of_answer? {c : Client} {response : ProxyResponse}
    (answer : c.answer? = some response) : c.phase = .answered response := by
  unfold answer? at answer
  split at answer <;> cases answer
  assumption

namespace Server

variable (s : Server)

def told? (i : Nat) (e : ServerEvent) : Option ProxyResponse := (s.output? e).bind (Output.tells? i)

/-- All that the client of call `i` is told over a run. -/
def told (i : Nat) (es : List ServerEvent) : List ProxyResponse :=
  Runs.collect step (told? · i) s es

section Told

variable {s} {e : ServerEvent} {i j : Nat} {c : Client} {pe : ProxyEvent}

theorem told_eq (s : Server) (i : Nat) (es : List ServerEvent) :
    s.told i es = (s.outputs es).filterMap (Output.tells? i) := by
  unfold told outputs
  induction es generalizing s with
  | nil => rfl
  | cons e es ih =>
    rw [Runs.collect_cons, Runs.collect_cons, List.filterMap_append, ih, told?]
    cases s.output? e <;> rfl

theorem told?_of_moves (moves : s.moves? e = some (j, c, pe)) (i : Nat) :
    s.told? i e = (s.ending? j c pe).bind (Output.tells? i) := by
  unfold told?
  rcases moves?_cases moves with ⟨now, rfl, rfl, holds⟩ | ⟨now, x, lease, rfl, rfl, here, sending⟩ |
    ⟨now, rfl, rfl, here⟩
  · simp only [output?, holds, Option.bind_some]
  · have able : (s.client? j).filter (·.sending?.isSome) = some c := by
      simp [here, Client.sending?, sending]
    simp only [output?, able, Option.bind_some]
  · simp only [output?, here, Option.bind_some]

theorem told?_of_idle (idle : s.moves? e = none) (i : Nat) : s.told? i e = none := by
  unfold told?
  cases e with
  | arrives now req =>
    simp only [output?, reply?]
    cases route req with
    | proxy => cases req.accept s.cfg <;> rfl
    | _ => rfl
  | tries now =>
    rw [moves?_tries, Option.map_eq_none_iff] at idle
    simp only [output?, idle, Option.bind_none]
  | replies now j x =>
    rw [moves?_replies, Option.map_eq_none_iff] at idle
    simp only [output?, idle, Option.bind_none]
  | builds now j =>
    rw [moves?_builds, Option.map_eq_none_iff] at idle
    simp only [output?, idle, Option.bind_none]
  | drops now j => rfl
  | reports now => rfl

theorem ending?_other (other : j ≠ i) : (s.ending? j c pe).bind (Output.tells? i) = none := by
  unfold ending?
  split
  · rfl
  · rw [Option.bind_map]
    apply Option.bind_eq_none_iff.mpr
    intro response _
    exact if_neg other

end Told

section Step

variable {s} {e : ServerEvent} {good : Nat → Bool} {n i : Nat}

/-- All calls are where they can be while keys are left to count on. -/
def Backed (good : Nat → Bool) (n : Nat) (s : Server) : Prop :=
  ∀ i c, s.client? i = some c →
    (c.session s.pool).Backed good n ∧ unreliable good n < c.job.maxAttempts

theorem Backed.step (backed : s.Backed good n) (keys : s.pool.keys.length = n)
    (few : unreliable good n < min n 5) (manned : Session.Manned good s.pool)
    (serves : ∀ t i o, s.call? e = some (.record t i o) → i < n → good i = true → o.serves = true) :
    (s.step e).Backed good n := by
  intro j c' there
  rcases client_cases there with here | ⟨c, pe, moves, here, rfl⟩ | ⟨now, req, r, -, -, rfl⟩
  · obtain ⟨session, room⟩ := backed j c' here
    exact ⟨session.repool _, room⟩
  · obtain ⟨session, room⟩ := backed j c here
    rw [call?_of_moves moves] at serves
    have next := session.step keys room manned pe serves
    exact ⟨next.repool _, room⟩
  · refine ⟨⟨List.nodup_nil, nofun, rfl, Nat.zero_le 1, .acquiring nofun⟩, ?_⟩
    show unreliable good n < max 2 (min s.pool.keys.length 5)
    omega

/-- A client is told its answer when its call comes to it. -/
theorem told?_answered {response : ProxyResponse} (told : s.told? i e = some response) :
    ∃ c, (s.step e).client? i = some c ∧ c.phase = .answered response := by
  have stepped := s.step_stepped e
  generalize s.step e = s' at stepped
  have silent (idle : s.moves? e = none) : False := by
    rw [told?_of_idle idle] at told
    cases told
  cases stepped with
  | moved j c pe line asleep moves here =>
    rw [told?_of_moves moves] at told
    by_cases mine : j = i
    · subst mine
      have found := (client?_follow here pe j).trans (if_pos rfl)
      refine ⟨_, found, Client.phase_of_answer? ?_⟩
      unfold ending? at told
      split at told
      · cases told
      · obtain ⟨out, ending, tells⟩ := Option.bind_eq_some_iff.mp told
        obtain ⟨response', answer, rfl⟩ := Option.map_eq_some_iff.mp ending
        rw [show Output.tells? j (.answered j response') = some response' from if_pos rfl] at tells
        exact answer.trans tells
    · rw [ending?_other mine] at told
      cases told
  | entered now req r line same routed accepted =>
    subst same
    exact (silent rfl).elim
  | dropped now j line asleep same =>
    subst same
    exact (silent rfl).elim
  | looked p pool idle quiet undropped => exact (silent idle).elim

end Step

section New

variable (turnstile : Mutex) (host : Host) (uriError : String → Option String) (cfg : Config)
  (started : Instant)

theorem pool_length (es : List ServerEvent) :
    ((new turnstile host uriError cfg started).after es).pool.keys.length = cfg.keys.length := by
  rw [after_pool, Pool.after_length]
  exact List.length_mapIdx

/-- The keys that are counted on have been reliable over a run of the process. -/
def CountsOn (good : Nat → Bool) (es : List ServerEvent) : Prop :=
  ∀ i < cfg.keys.length, good i = true → Reliable ((cfg.monthlyLimits[i]?).join)
    (((new turnstile host uriError cfg started).calls es).filterMap (Call.recorded i))

variable {turnstile host uriError cfg started} {good : Nat → Bool} {es : List ServerEvent} {e : ServerEvent}

theorem recorded_concat (i : Nat) :
    ((new turnstile host uriError cfg started).calls (es ++ [e])).filterMap (Call.recorded i) =
      ((new turnstile host uriError cfg started).calls es).filterMap (Call.recorded i) ++
        ((((new turnstile host uriError cfg started).after es).call? e).bind (Call.recorded i)).toList := by
  unfold Server.calls
  rw [Runs.collect_append, Runs.collect_cons, Runs.collect_nil, List.append_nil,
    List.filterMap_append, filterMap_toList]
  rfl

theorem CountsOn.serves (counts : CountsOn turnstile host uriError cfg started good (es ++ [e])) {t : Instant}
    {i : Nat} {o : Outcome}
    (call : ((new turnstile host uriError cfg started).after es).call? e = some (.record t i o))
    (inside : i < cfg.keys.length) (good : good i = true) : o.serves = true := by
  have reliable := counts i inside good
  rw [recorded_concat, call] at reliable
  have recorded : (Call.record t i o).recorded i = some o := if_pos rfl
  apply reliable.serves o
  rw [Option.bind_some, recorded]
  simp

theorem CountsOn.of_concat (counts : CountsOn turnstile host uriError cfg started good (es ++ [e])) :
    CountsOn turnstile host uriError cfg started good es := by
  intro i inside good
  have reliable := counts i inside good
  rw [recorded_concat] at reliable
  exact reliable.of_append

theorem manned_run (few : unreliable good cfg.keys.length < cfg.keys.length)
    (counts : CountsOn turnstile host uriError cfg started good es) :
    Session.Manned good ((new turnstile host uriError cfg started).after es).pool := by
  obtain ⟨i, inside, good⟩ := exists_good few
  have there : i < ((new turnstile host uriError cfg started).after es).pool.keys.length := by
    rw [pool_length]
    exact inside
  obtain ⟨k, here⟩ : ∃ k, ((new turnstile host uriError cfg started).after es).pool.keys[i]? = some k :=
    ⟨_, List.getElem?_eq_getElem there⟩
  refine ⟨i, k, here, good, ?_⟩
  rw [after_pool] at here
  exact (Pool.stands_run host cfg.keys _ here (counts i inside good)).healthy

theorem backed_run (few : unreliable good cfg.keys.length < min cfg.keys.length 5)
    (counts : CountsOn turnstile host uriError cfg started good es) :
    ((new turnstile host uriError cfg started).after es).Backed good cfg.keys.length ∧
      ∀ i, ∀ response ∈ (new turnstile host uriError cfg started).told i es, response.Spared := by
  induction es using List.reverseRecOn with
  | nil =>
    constructor
    · intro i c here
      cases here
    · exact fun i => nofun
  | append_singleton es e ih =>
    obtain ⟨backed, spared⟩ := ih counts.of_concat
    have manned := manned_run (few.trans_le (Nat.min_le_left ..)) counts.of_concat
    have next := backed.step (pool_length turnstile host uriError cfg started es) few manned
      fun t i o call inside good => counts.serves call inside good
    rw [after_append]
    refine ⟨next, ?_⟩
    intro i response member
    rw [Server.told, Runs.collect_append, Runs.collect_cons, Runs.collect_nil, List.append_nil] at member
    rcases List.mem_append.mp member with earlier | now
    · exact spared i response earlier
    · obtain ⟨c, there, phase⟩ := told?_answered (Option.mem_toList.mp now)
      exact (next i c there).1.spared phase

variable (turnstile host uriError cfg started)

/-- As long as fewer keys fail than a request has attempts, no client is told of one that does, or that
    there is none to use, and no request is sent with the same key twice. -/
theorem fails_over (good : Nat → Bool) (few : unreliable good cfg.keys.length < min cfg.keys.length 5)
    (es : List ServerEvent) (counts : CountsOn turnstile host uriError cfg started good es) :
    (∀ i response, Output.answered i response ∈ (new turnstile host uriError cfg started).outputs es →
      response.Spared) ∧
    ∀ i c, ((new turnstile host uriError cfg started).after es).client? i = some c →
      c.tried.Nodup ∧ c.attempts ≤ unreliable good cfg.keys.length + 1 := by
  obtain ⟨backed, spared⟩ := backed_run few counts
  constructor
  · intro i response member
    apply spared i
    rw [told_eq]
    exact List.mem_filterMap.mpr ⟨_, member, if_pos rfl⟩
  · intro i c here
    obtain ⟨session, -⟩ := backed i c here
    exact ⟨session.fresh, session.attempts_le⟩

end New

/-- Two keys, the first of which Brave does not take. -/
def firstRejected : List ServerEvent :=
  [.arrives 0 (.ofTests "/search"), .tries 0,
    .replies 1 0 { head := .ok (401, ⟨[], List.nodup_nil⟩), frames := [], inTime := true },
    .tries 2, .replies 3 0 (okWith [123, 125]), .builds 4 0]

theorem first_rejected_spared :
    (∀ i response, Output.answered i response ∈ (ofTests ["first", "second"]).outputs firstRejected →
      response.Spared) ∧
    ∀ i c, ((ofTests ["first", "second"]).after firstRejected).client? i = some c →
      c.tried.Nodup ∧ c.attempts ≤ unreliable (· == 1) 2 + 1 := by
  refine fails_over _ _ _ (Config.ofDefaults ["first", "second"]) 0 (· == 1) (by decide) firstRejected ?_
  intro i inside good
  obtain rfl : i = 1 := by simpa using good
  have log : ((ofTests ["first", "second"]).calls firstRejected).filterMap (Call.recorded 1) =
      [.response 200 none none] := by decide
  unfold ofTests at log
  rw [log]
  exact ⟨by decide, nofun⟩

end Server

end BraveRotator
