import BraveRotator.Proxy.Success

namespace BraveRotator

/-- A request that was sent, and what came of it. -/
abbrev Attempt := Lease × Except UpstreamError UpstreamResponse

/-- The statuses after which another key is tried. -/
def retriedStatus (status : Nat) : Bool :=
  status = 429 ∨ status = 401 ∨ status = 403 ∨ (500 ≤ status ∧ status ≤ 599)

namespace Attempt

def failed (a : Attempt) : Bool :=
  match a.2 with
  | .error _ => true
  | .ok up => retriedStatus up.status

/-- The response, with the label of the key it came for. -/
def response? (a : Attempt) : Option (UpstreamResponse × String) := a.2.toOption.map (·, a.1.label)

def error? (a : Attempt) : Option String :=
  match a.2 with
  | .error e => some e.text
  | .ok _ => none

/-- The response that the client gets after these attempts: one that no other key is tried after, or
    the last one of all when there are to be no more. -/
def chosen? (most : Nat) (log : List Attempt) : Option (UpstreamResponse × String) :=
  match log.find? (!·.failed) with
  | some a => a.response?
  | none => if log.length < most then none else (log.filterMap response?).getLast?

end Attempt

theorem KeyState.digest_verdict (k : KeyState) (now : Instant) (status : Nat) (rl : Option RateLimitInfo)
    (bodySnippet : Option String) :
    (k.digest now (.response status rl bodySnippet)).2 = .retryOtherKey ↔ retriedStatus status = true := by
  unfold digest retriedStatus
  rw [decide_eq_true_eq]
  dsimp only
  split
  · exact iff_of_false nofun (by omega)
  split
  · exact iff_of_true rfl (by omega)
  split
  · exact iff_of_true rfl (by omega)
  split
  · exact iff_of_false nofun (by omega)
  split
  · exact iff_of_true rfl (by omega)
  · exact iff_of_false nofun (by omega)

namespace Session

variable (job : Job) (s : Session)

def attempt? (e : ProxyEvent) : Option Attempt := (s.sent? job e).map Prod.snd

/-- The attempts that have come to something. -/
def log (es : List ProxyEvent) : List Attempt := Runs.collect (step job) (attempt? job) s es

/-- Where the retry loop is, told from the attempts. -/
inductive Reached (job : Job) (log : List Attempt) : Phase → Prop
  | acquiring (failed : ∀ a ∈ log, a.failed = true) (room : log.length < job.maxAttempts) :
      Reached job log .acquiring
  | sending (lease : Lease) (failed : ∀ a ∈ log, a.failed = true) (room : log.length < job.maxAttempts) :
      Reached job log (.sending lease)
  | building (up : UpstreamResponse) (label : String)
      (chosen : Attempt.chosen? job.maxAttempts log = some (up, label)) :
      Reached job log (.building up label)
  | forwarded (p : Pool) (now : Instant) (up : UpstreamResponse) (label : String)
      (chosen : Attempt.chosen? job.maxAttempts log = some (up, label)) :
      Reached job log (.answered (.forwarded (buildResponse p now up label log.length).2))
  /-- No key for another attempt: what upstream has said so far is not passed on. -/
  | refused (e : AcquireError) (failed : ∀ a ∈ log, a.failed = true)
      (room : log.length < job.maxAttempts) :
      Reached job log (.answered (.error (acquireFailed e)))
  | unreachable (text : String) (silent : ∀ a ∈ log, a.response? = none)
      (full : log.length = job.maxAttempts) (last : (log.getLast?).bind Attempt.error? = some text) :
      Reached job log (.answered (.error (errorResponse 502 "upstream_unreachable" text none)))

/-- What the session keeps in mind, told from the attempts. -/
structure Told (job : Job) (log : List Attempt) (s : Session) : Prop where
  attempts : s.attempts = log.length + s.pending.length
  lastResponse : s.lastResponse = ((log.filter Attempt.failed).filterMap Attempt.response?).getLast?
  lastError : s.lastError = (log.filterMap Attempt.error?).getLast?
  reached : Reached job log s.phase

section Told

variable {job : Job} {s : Session} {log : List Attempt} {a : Attempt}

theorem chosen?_of_final (failed : ∀ a ∈ log, a.failed = true) (final : a.failed = false) (most : Nat) :
    Attempt.chosen? most (log ++ [a]) = a.response? := by
  have none : log.find? (!·.failed) = none := by
    rw [List.find?_eq_none]
    intro b member
    rw [failed b member]
    exact Bool.false_ne_true
  have found : (log ++ [a]).find? (!·.failed) = some a := by
    rw [List.find?_append, none, Option.none_or, List.find?_singleton, final]
    rfl
  rw [Attempt.chosen?, found]

theorem chosen?_of_failed {most : Nat} (failed : ∀ a ∈ log, a.failed = true) (full : most ≤ log.length) :
    Attempt.chosen? most log = (log.filterMap Attempt.response?).getLast? := by
  have none : log.find? (!·.failed) = none := by
    rw [List.find?_eq_none]
    intro b member
    rw [failed b member]
    exact Bool.false_ne_true
  rw [Attempt.chosen?, none]
  exact if_neg (Nat.not_lt.mpr full)

theorem error?_of_silent (silent : a.response? = none) : ∃ text, a.error? = some text := by
  obtain ⟨lease, e | up⟩ := a
  · exact ⟨e.text, rfl⟩
  · cases silent

theorem told_next (attempts : s.attempts = log.length)
    (lastResponse : s.lastResponse = (log.filterMap Attempt.response?).getLast?)
    (lastError : s.lastError = (log.filterMap Attempt.error?).getLast?)
    (failed : ∀ a ∈ log, a.failed = true) (some : log ≠ []) (bounded : log.length ≤ job.maxAttempts) :
    Told job log (s.next job) := by
  have all : log.filter Attempt.failed = log := List.filter_eq_self.mpr failed
  unfold next
  by_cases room : s.attempts < job.maxAttempts
  · rw [if_pos room]
    exact ⟨attempts, by rw [all]; exact lastResponse, lastError, .acquiring failed (attempts ▸ room)⟩
  · rw [if_neg room]
    have full : log.length = job.maxAttempts := by omega
    cases last : s.lastResponse with
    | some pair =>
      refine ⟨attempts, by rw [all]; exact last.symm.trans lastResponse, lastError,
        .building pair.1 pair.2 ?_⟩
      rw [chosen?_of_failed failed full.ge, ← lastResponse, last]
    | none =>
      refine ⟨attempts, by rw [all]; exact last.symm.trans lastResponse, lastError, ?_⟩
      have silent : ∀ a ∈ log, a.response? = Option.none := by
        rw [last] at lastResponse
        have empty := List.getLast?_eq_none_iff.mp lastResponse.symm
        exact List.filterMap_eq_nil_iff.mp empty
      obtain ⟨front, a, rfl⟩ : ∃ front a, log = front ++ [a] :=
        ⟨_, _, (List.dropLast_append_getLast some).symm⟩
      obtain ⟨text, error⟩ := error?_of_silent (silent a (by simp))
      have told : s.lastError = Option.some text := by
        rw [lastError, List.filterMap_append, List.filterMap_cons, error]
        exact List.getLast?_concat ..
      rw [told]
      refine .unreachable text silent full ?_
      rw [List.getLast?_concat, Option.bind_some, error]

theorem Told.received (told : Told job log s) {lease : Lease} (sending : s.phase = .sending lease)
    (within : s.Within) {now : Instant} {result : Except UpstreamError UpstreamResponse} {s' : Session}
    (received : s.Received job now lease result s') : Told job (log ++ [(lease, result)]) s' := by
  have reached := told.reached
  rw [sending] at reached
  obtain ⟨failed, room⟩ : (∀ a ∈ log, a.failed = true) ∧ log.length < job.maxAttempts := by
    cases reached with
    | sending _ failed room => exact ⟨failed, room⟩
  have all : log.filter Attempt.failed = log := List.filter_eq_self.mpr failed
  have count : s.attempts = (log ++ [(lease, result)]).length := by
    have before := told.attempts
    unfold pending at before
    rw [sending] at before
    rw [before, List.length_append]
    rfl
  have lastResponse := told.lastResponse
  rw [all] at lastResponse
  obtain ⟨k, here⟩ : ∃ k, s.pool.keys[lease.idx]? = some k :=
    ⟨_, List.getElem?_eq_getElem (within lease sending)⟩
  have bounded : (log ++ [(lease, result)]).length ≤ job.maxAttempts := by
    rw [List.length_append]
    exact room
  have nonempty : log ++ [(lease, result)] ≠ [] := by simp
  cases received with
  | settles up p settled =>
    have final : Attempt.failed (lease, .ok up) = false := by
      rw [record_verdict here] at settled
      exact Bool.eq_false_of_not_eq_true fun retried =>
        settled ((k.digest_verdict now up.status _ _).mpr retried)
    refine ⟨count, ?_, ?_, .building up lease.label (chosen?_of_final failed final _)⟩
    · rw [List.filter_append, all, List.filter_singleton, final]
      simpa using lastResponse
    · rw [List.filterMap_append]
      simpa [Attempt.error?] using told.lastError
  | retries up p retry =>
    have again : Attempt.failed (lease, .ok up) = true := by
      rw [record_verdict here] at retry
      exact (k.digest_verdict now up.status _ _).mp retry
    refine told_next count ?_ ?_ ?_ nonempty bounded
    · rw [List.filterMap_append]
      exact (List.getLast?_concat ..).symm
    · rw [List.filterMap_append]
      simpa [Attempt.error?] using told.lastError
    · simpa [or_imp, forall_and, again] using failed
  | fails e p =>
    refine told_next count ?_ ?_ ?_ nonempty bounded
    · rw [List.filterMap_append]
      simpa [Attempt.response?, Except.toOption] using lastResponse
    · rw [List.filterMap_append]
      exact (List.getLast?_concat ..).symm
    · intro a member
      rcases List.mem_append.mp member with before | last
      · exact failed a before
      · rw [List.mem_singleton.mp last]
        rfl

theorem Told.step (told : Told job log s) (within : s.Within) (e : ProxyEvent) :
    Told job (log ++ (s.attempt? job e).toList) (step job s e) := by
  have turned := step_turned job s e
  generalize Session.step job s e = s' at turned
  have quiet : s.sent? job e = none → log ++ (s.attempt? job e).toList = log := by
    intro unsent
    rw [attempt?, unsent]
    exact List.append_nil _
  obtain ⟨attempts, lastResponse, lastError, reached⟩ := told
  cases turned with
  | idles _ p unleased unsent =>
    rw [quiet unsent]
    exact ⟨attempts, lastResponse, lastError, reached⟩
  | leases now p lease acquiring granted =>
    rw [quiet rfl]
    rw [acquiring] at reached
    rw [pending_acquiring acquiring] at attempts
    cases reached with
    | acquiring failed room =>
      exact ⟨congrArg (· + 1) attempts, lastResponse, lastError, .sending lease failed room⟩
  | fails now p err acquiring unleased =>
    rw [quiet rfl]
    rw [acquiring] at reached
    rw [pending_acquiring acquiring] at attempts
    cases reached with
    | acquiring failed room => exact ⟨attempts, lastResponse, lastError, .refused err failed room⟩
  | receives now x lease sending =>
    rw [attempt?, sent?_replies sending]
    exact Told.received ⟨attempts, lastResponse, lastError, reached⟩ sending within (receive_received ..)
  | builds now up label building =>
    rw [quiet rfl]
    rw [building] at reached
    rw [pending_building building] at attempts
    cases reached with
    | building _ _ chosen =>
      have forwarded : Reached job log _ := .forwarded s.pool now up label chosen
      rw [← show s.attempts = log.length from attempts] at forwarded
      exact ⟨attempts, lastResponse, lastError, forwarded⟩

theorem told_run (job : Job) (p : Pool) (room : 0 < job.maxAttempts) (es : List ProxyEvent) :
    Told job (({ pool := p } : Session).log job es) (({ pool := p } : Session).run job es) := by
  induction es using List.reverseRecOn with
  | nil => exact ⟨rfl, rfl, rfl, .acquiring nofun room⟩
  | append_singleton es e ih =>
    have next := ih.step (within_run job p es) e
    rw [run_append]
    have log : ({ pool := p } : Session).log job (es ++ [e]) = _ := Runs.collect_append ..
    rw [log, Runs.collect_cons, Runs.collect_nil, List.append_nil]
    exact next

end Told

end Session

end BraveRotator
