import BraveRotator.Proxy.Attempts
import BraveRotator.Server.Step

namespace BraveRotator

namespace Session

variable (job : Job) (s : Session)

theorem overheard_append (as bs : List ProxyEvent) :
    s.overheard job (as ++ bs) = s.overheard job as ++ (s.run job as).overheard job bs :=
  Runs.collect_append ..

theorem run_others (cs : List Call) :
    s.run job (cs.map .others) = { s with pool := s.pool.after cs } := by
  induction cs generalizing s with
  | nil => rfl
  | cons c cs ih => exact ih { s with pool := s.pool.step c }

theorem overheard_others (cs : List Call) : s.overheard job (cs.map .others) = cs := by
  induction cs generalizing s with
  | nil => rfl
  | cons c cs ih => exact congrArg (c :: ·) (ih { s with pool := s.pool.step c })

end Session

namespace Server

section Views

variable {s : Server} {e : ServerEvent} {j : Nat} {c c' : Client}

/-- What `c'` is at the end is what a session comes to that starts as `c`, with the calls of all others
    in between. -/
def Plays (s : Server) (c : Client) (s' : Server) (c' : Client) (calls : List Call) : Prop :=
  c'.job = c.job ∧ ∃ pes : List ProxyEvent,
    c'.session s'.pool = (c.session s.pool).run c.job pes ∧
      (c.session s.pool).overheard c.job pes = calls

theorem plays_bystander {s' : Server} {calls : List Call} (pool : s'.pool = s.pool.after calls) :
    Plays s c s' c calls := by
  refine ⟨rfl, calls.map .others, ?_, Session.overheard_others ..⟩
  rw [Session.run_others, pool]
  rfl

theorem Plays.trans {s₁ s₂ s₃ : Server} {c₁ c₂ c₃ : Client} {as bs : List Call}
    (first : Plays s₁ c₁ s₂ c₂ as) (second : Plays s₂ c₂ s₃ c₃ bs) :
    Plays s₁ c₁ s₃ c₃ (as ++ bs) := by
  obtain ⟨job, pes, view, calls⟩ := first
  obtain ⟨job', pes', view', calls'⟩ := second
  rw [job, view] at view' calls'
  refine ⟨job'.trans job, pes ++ pes', ?_, ?_⟩
  · rw [view', Session.run_append]
  · rw [Session.overheard_append, calls, calls']

/-- The step lemma: while it is there, a call sees a session's own event, or what others do. -/
theorem step_plays (here : s.client? j = some c) (there : (s.step e).client? j = some c') :
    Plays s c (s.step e) c' (s.call? e).toList := by
  have pool := s.step_pool e
  have stepped := s.step_stepped e
  generalize s.step e = s' at there pool stepped
  cases stepped with
  | moved i ci pe line asleep moves at_ =>
    have found : (if j = i then some (ci.resume (Session.step ci.job (ci.session s.pool) pe))
        else s.client? j) = some c' := (client?_follow at_ pe j).symm.trans there
    by_cases same : j = i
    · rw [if_pos same] at found
      subst same
      rw [here] at at_
      cases at_
      cases found
      refine ⟨rfl, [pe], rfl, ?_⟩
      rw [← made?_of_moves moves]
      exact List.append_nil _
    · rw [if_neg same, here] at found
      cases found
      exact plays_bystander pool
  | entered now req r line same routed accepted =>
    have other : j ≠ s.clients.length := (inside_of_client here).ne
    have found := (client?_entered _ j).symm.trans there
    rw [if_neg other, here] at found
    cases found
    exact plays_bystander pool
  | dropped now i line asleep same =>
    have found := (client?_dropped j).symm.trans there
    by_cases gone : j = i
    · rw [if_pos gone] at found
      cases found
    · rw [if_neg gone, here] at found
      cases found
      exact plays_bystander pool
  | looked p called idle quiet undropped =>
    cases here.symm.trans there
    exact plays_bystander pool

theorem length_le_step (s : Server) (e : ServerEvent) :
    s.clients.length ≤ (s.step e).clients.length := by
  have stepped := s.step_stepped e
  generalize s.step e = s' at stepped
  cases stepped with
  | moved i c pe line asleep moves here => exact (List.length_set ..).ge
  | entered now req r line same routed accepted =>
    rw [List.length_append]
    exact Nat.le_add_right _ _
  | dropped now i line asleep same => exact (List.length_set ..).ge
  | looked p called idle quiet undropped => exact le_rfl

/-- A call that is dropped does not come back. -/
theorem gone_step (inside : j < s.clients.length) (gone : s.client? j = none) :
    (s.step e).client? j = none := by
  have stepped := s.step_stepped e
  generalize s.step e = s' at stepped
  cases stepped with
  | moved i ci pe line asleep moves at_ =>
    refine (client?_follow at_ pe j).trans ?_
    by_cases same : j = i
    · rw [same, at_] at gone
      cases gone
    · rw [if_neg same, gone]
  | entered now req r line same routed accepted =>
    refine (client?_entered _ j).trans ?_
    rw [if_neg inside.ne, gone]
  | dropped now i line asleep same =>
    refine (client?_dropped j).trans ?_
    rw [gone, ite_self]
  | looked p called idle quiet undropped => exact gone

theorem gone_run (inside : j < s.clients.length) (gone : s.client? j = none)
    (es : List ServerEvent) : (s.after es).client? j = none := by
  have keep : ∀ (s : Server) (e : ServerEvent), j < s.clients.length ∧ s.client? j = none →
      j < (s.step e).clients.length ∧ (s.step e).client? j = none := by
    intro s e ⟨inside, gone⟩
    exact ⟨inside.trans_le (s.length_le_step e), gone_step inside gone⟩
  exact (Runs.exec_invariant' keep es ⟨inside, gone⟩).2

/-- The run lemma. -/
theorem run_plays (here : s.client? j = some c) (es : List ServerEvent)
    (there : (s.after es).client? j = some c') :
    Plays s c (s.after es) c' (s.calls es) := by
  induction es generalizing s c with
  | nil =>
    cases here.symm.trans there
    exact ⟨rfl, [], rfl, rfl⟩
  | cons e es ih =>
    have inside : j < (s.step e).clients.length :=
      (inside_of_client here).trans_le (s.length_le_step e)
    cases next : (s.step e).client? j with
    | none =>
      rw [show (s.after (e :: es)).client? j = none from gone_run inside next es] at there
      cases there
    | some c₁ => exact (step_plays here next).trans (ih next there)

end Views

variable (s : Server)

theorem after_fixed (es : List ServerEvent) :
    (s.after es).cfg = s.cfg ∧ (s.after es).upstream = s.upstream := by
  have keep : ∀ (s' : Server) (e : ServerEvent), s'.cfg = s.cfg ∧ s'.upstream = s.upstream →
      (s'.step e).cfg = s.cfg ∧ (s'.step e).upstream = s.upstream := by
    intro s' e same
    obtain ⟨cfg, upstream, -⟩ := s'.step_fixed e
    exact ⟨cfg.trans same.1, upstream.trans same.2⟩
  exact Runs.exec_invariant' keep es ⟨rfl, rfl⟩

theorem enter_client (now : Instant) {req : ClientRequest} {r : Forward} (routed : route req = .proxy)
    (accepted : req.accept s.cfg = .ok r) :
    (s.step (.arrives now req)).client? s.clients.length =
        some { job := r.job s.cfg s.upstream s.pool now } ∧
      (s.step (.arrives now req)).pool = s.pool := by
  have entered : s.step (.arrives now req) =
      { s with
        clients := s.clients ++ [some { job := r.job s.cfg s.upstream s.pool now }]
        line := s.line ++ [s.clients.length] } := by
    simp only [step, arrive, routed, enter, accepted]
  rw [entered]
  refine ⟨(client?_entered _ s.clients.length).trans ?_, rfl⟩
  rw [if_pos rfl]

/-- Every client of the process, however many there are, sees a run of the retry loop alone, in which
    the others are calls on the pool. -/
theorem client_is_session (before after : List ServerEvent) (now : Instant) (req : ClientRequest)
    (r : Forward) (c : Client) (routed : route req = .proxy) (accepted : req.accept s.cfg = .ok r)
    (there : (s.after (before ++ .arrives now req :: after)).client? (s.after before).clients.length =
      some c) :
    ∃ pes : List ProxyEvent,
      let job := r.job s.cfg s.upstream (s.after before).pool now
      let start : Session := { pool := (s.after before).pool }
      c.session (s.after (before ++ .arrives now req :: after)).pool = start.run job pes ∧
        start.overheard job pes = (s.after (before ++ [.arrives now req])).calls after ∧
        c.attempts ≤ max 2 (min (s.after before).pool.keys.length 5) ∧
        Session.RetriesWell job start pes := by
  obtain ⟨cfg, upstream⟩ := s.after_fixed before
  rw [← cfg] at accepted
  obtain ⟨here, pool⟩ := (s.after before).enter_client now routed accepted
  rw [cfg, upstream] at here
  have split : before ++ .arrives now req :: after = before ++ [.arrives now req] ++ after :=
    List.append_cons ..
  have first : s.after (before ++ [.arrives now req]) = (s.after before).step (.arrives now req) :=
    s.after_append before [.arrives now req]
  rw [split, s.after_append, first] at there ⊢
  obtain ⟨-, pes, view, calls⟩ := run_plays here after there
  rw [pool] at view calls
  have room : 0 < (r.job s.cfg s.upstream (s.after before).pool now).maxAttempts := by
    show 0 < max 2 (min _ 5)
    omega
  have ledgers := (Session.ledger_new _ (s.after before).pool room).run
  refine ⟨pes, view, calls, ?_, Session.Ledger.retriesWell room ledgers pes⟩
  have bounded := (ledgers pes).bounded
  have attempts := congrArg Session.attempts view
  exact attempts.le.trans bounded

/-- The second of two requests, which waits in line. -/
theorem second_is_session :
    ∃ c, ((ofTests ["first"]).after
        ([.arrives 0 (.ofTests "/a")] ++ .arrives 1 (.ofTests "/b") :: [.tries 2])).client? 1 = some c ∧
      ∃ pes : List ProxyEvent,
        c.session ((ofTests ["first"]).after
            ([.arrives 0 (.ofTests "/a")] ++ .arrives 1 (.ofTests "/b") :: [.tries 2])).pool =
          ({ pool := ((ofTests ["first"]).after [.arrives 0 (.ofTests "/a")]).pool } : Session).run
            c.job pes := by
  refine ⟨_, rfl, ?_⟩
  obtain ⟨pes, view, -⟩ := client_is_session (ofTests ["first"]) [.arrives 0 (.ofTests "/a")] [.tries 2] 1
    (.ofTests "/b") _ _ rfl rfl rfl
  exact ⟨pes, view⟩

end Server

end BraveRotator
