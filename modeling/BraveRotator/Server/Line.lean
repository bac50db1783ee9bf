import BraveRotator.Server.Sessions

namespace BraveRotator

namespace Session

variable {job : Job} {s : Session} {now : Instant}

/-- The call of `acquire` that the session is in. -/
def asking (job : Job) (s : Session) (now : Instant) : AcquireCall :=
  { made := now, deadline := job.deadline, request := s.tried }

theorem step_of_sleeps {u : Instant} (acquiring : s.phase = .acquiring)
    (sleeps : (s.pool.acquireTurn now (s.asking job now)).2 = .sleeps u) :
    step job s (.tries now) =
      { s with pool := (s.pool.acquireTurn now (s.asking job now)).1 } := by
  rw [step_tries acquiring]
  unfold attempt
  unfold asking at sleeps ⊢
  rcases turned : s.pool.acquireTurn now { made := now, deadline := job.deadline, request := s.tried } with
    ⟨p, turn⟩
  rw [turned] at sleeps
  cases sleeps
  rfl

/-- How the call goes on once `acquire` is through. -/
def phaseAfter : Except AcquireError Lease → Phase
  | .ok lease => .sending lease
  | .error e => .answered (.error (acquireFailed e))

theorem phase_of_ends {result : Except AcquireError Lease} (acquiring : s.phase = .acquiring)
    (ends : (s.pool.acquireTurn now (s.asking job now)).2 = .ends result) :
    (step job s (.tries now)).phase = phaseAfter result := by
  rw [step_tries acquiring]
  unfold attempt
  unfold asking at ends
  rcases turned : s.pool.acquireTurn now { made := now, deadline := job.deadline, request := s.tried } with
    ⟨p, turn⟩
  rw [turned] at ends
  cases ends
  cases result <;> rfl

theorem phase_of_builds (s : Session) (job : Job) (now : Instant) :
    (step job s (.builds now)).phase = .acquiring ↔ s.phase = .acquiring := by
  unfold step
  dsimp only
  split
  · rename_i building
    rw [building]
    exact iff_of_false nofun nofun
  · exact Iff.rfl

end Session

namespace Server

variable (s : Server)

/-- The call `i` is in `acquire`. -/
def waitsAt (i : Nat) : Bool := (s.client? i).any Client.waits

/-- What an event does to the turnstile. -/
inductive Relined (s : Server) (s' : Server) : Prop
  | joins (i : Nat) (fresh : s.waitsAt i = false) (line : s'.line = s.line ++ [i])
      (waits : ∀ j, s'.waitsAt j = (s.waitsAt j || decide (j = i)))
  | serves (i : Nat) (rest : List Nat) (line : s.line = i :: rest)
      (line' : s'.line = s.turnstile.handover rest) (there : (s'.client? i).isSome = true)
      (waits : ∀ j, s'.waitsAt j = (s.waitsAt j && decide (j ≠ i)))
  | yields (i : Nat) (rest : List Nat) (line : s.line = i :: rest)
      (line' : s'.line = s.turnstile.handover rest) (gone : s'.client? i = none)
      (waits : ∀ j, s'.waitsAt j = (s.waitsAt j && decide (j ≠ i)))
  | quits (i : Nat) (away : s.line.head? ≠ some i) (line : s'.line = s.line.filter (· ≠ i))
      (gone : s'.client? i = none) (waits : ∀ j, s'.waitsAt j = (s.waitsAt j && decide (j ≠ i)))
  | keeps (line : s'.line = s.line) (waits : ∀ j, s'.waitsAt j = s.waitsAt j)

/-- Those in line are the calls in `acquire`, each once. -/
structure Lined (s : Server) : Prop where
  nodup : s.line.Nodup
  waits : ∀ i, i ∈ s.line ↔ s.waitsAt i = true

section Step

variable {s s' : Server} {e : ServerEvent} {i : Nat} {c : Client} {now : Instant}

theorem waitsAt_of_client (here : s.client? i = some c) : s.waitsAt i = c.waits := by
  rw [waitsAt, here, Option.any_some]

theorem Lined.head_waits (lined : s.Lined) {rest : List Nat} (line : s.line = i :: rest) :
    s.waitsAt i = true := by
  rw [← lined.waits, line]
  exact List.mem_cons_self

theorem client?_congr (same : s'.clients = s.clients) (j : Nat) : s'.client? j = s.client? j := by
  rw [client?, client?, same]

theorem waitsAt_follow (pe : ProxyEvent) (same : s'.clients = (s.follow i c pe).clients)
    (here : s.client? i = some c) (j : Nat) :
    s'.waitsAt j =
      if j = i then (c.resume (Session.step c.job (c.session s.pool) pe)).waits else s.waitsAt j := by
  unfold waitsAt
  rw [client?_congr same, client?_follow here]
  by_cases mine : j = i
  · rw [if_pos mine, if_pos mine, Option.any_some]
  · rw [if_neg mine, if_neg mine]

theorem holder?_line (holds : s.holder? now = some (i, c)) :
    s.asleep ≤ now ∧ ∃ rest, s.line = i :: rest := by
  unfold holder? at holds
  split at holds
  · rename_i awake
    obtain ⟨j, head, found⟩ := Option.bind_eq_some_iff.mp holds
    obtain ⟨c', here, same⟩ := Option.map_eq_some_iff.mp found
    cases same
    exact ⟨awake, List.head?_eq_some_iff.mp head⟩
  · cases holds

theorem keeps_of_moved (pe : ProxyEvent) (line : s'.line = s.line)
    (same : s'.clients = (s.follow i c pe).clients) (here : s.client? i = some c)
    (kept : (c.resume (Session.step c.job (c.session s.pool) pe)).waits = c.waits) :
    s.Relined s' := by
  refine .keeps line fun j => ?_
  rw [waitsAt_follow pe same here]
  by_cases mine : j = i
  · rw [if_pos mine, kept, mine, waitsAt_of_client here]
  · rw [if_neg mine]

theorem attempt_relined (lined : s.Lined) (holds : s.holder? now = some (i, c)) :
    s.Relined (s.attempt now i c) := by
  have here := holder?_client holds
  obtain ⟨-, rest, line⟩ := holder?_line holds
  have waits : c.waits = true := by
    rw [← waitsAt_of_client here]
    exact lined.head_waits line
  have acquiring : (c.session s.pool).phase = .acquiring := c.waits_iff.mp waits
  unfold attempt
  dsimp only
  split
  · rename_i u sleeps
    have slept := Session.step_of_sleeps acquiring sleeps
    refine keeps_of_moved (.tries now) rfl rfl here ?_
    rw [slept]
    rfl
  · rename_i result ends
    have phase := Session.phase_of_ends acquiring ends
    have through : (c.resume (Session.step c.job (c.session s.pool) (.tries now))).waits = false := by
      unfold Client.waits
      rw [Client.resume_phase, phase]
      cases result <;> rfl
    refine .serves i rest line (congrArg (s.turnstile.handover ·.tail) line) ?_ fun j => ?_
    · have stays := (client?_follow here (.tries now) i).trans (if_pos rfl)
      exact congrArg Option.isSome stays
    · refine (waitsAt_follow (.tries now) rfl here j).trans ?_
      rw [through]
      by_cases mine : j = i <;> simp [mine]

theorem answer_relined (here : s.client? i = some c) (sending : c.sending?.isSome = true)
    (x : Exchange) : s.Relined (s.answer now i c x) := by
  have busy : c.waits = false := by
    obtain ⟨lease, sends⟩ := Option.isSome_iff_exists.mp sending
    unfold Client.waits
    rw [c.sending?_eq_some.mp sends]
  have back : ((s.follow i c (.replies now x)).client? i).any Client.waits =
      (c.resume (Session.step c.job (c.session s.pool) (.replies now x))).waits := by
    rw [client?_follow here, if_pos rfl, Option.any_some]
  unfold answer
  dsimp only
  rw [back]
  split
  · rename_i waits
    refine .joins i ((waitsAt_of_client here).trans busy) rfl fun j => ?_
    refine (waitsAt_follow (.replies now x) rfl here j).trans ?_
    rw [waits]
    by_cases mine : j = i <;> simp [mine]
  · rename_i waits
    refine keeps_of_moved (.replies now x) rfl rfl here ?_
    rw [busy]
    exact Bool.eq_false_of_not_eq_true waits

theorem drop_relined (s : Server) (i : Nat) : s.Relined (s.drop i) := by
  have clients : (s.drop i).clients = s.clients.set i none := by
    unfold drop
    dsimp only
    split <;> rfl
  have found : ∀ j, (s.drop i).client? j = if j = i then none else s.client? j := by
    intro j
    rw [client?, clients]
    exact client?_dropped j
  have waits : ∀ j, (s.drop i).waitsAt j = (s.waitsAt j && decide (j ≠ i)) := by
    intro j
    unfold waitsAt
    rw [found]
    by_cases mine : j = i <;> simp [mine]
  have gone : (s.drop i).client? i = none := (found i).trans (if_pos rfl)
  by_cases holds : s.line.head? = some i
  · obtain ⟨rest, line⟩ := List.head?_eq_some_iff.mp holds
    refine .yields i rest line ?_ gone waits
    rw [drop, if_pos holds, line]
    rfl
  · refine .quits i holds ?_ gone waits
    rw [drop, if_neg holds]

theorem arrive_relined (s : Server) (now : Instant) (req : ClientRequest) :
    s.Relined (s.arrive now req) := by
  unfold arrive
  split
  · unfold enter
    split
    · exact .keeps rfl fun _ => rfl
    · have fresh : s.client? s.clients.length = none := by
        rw [client?, List.getElem?_eq_none_iff.mpr le_rfl]
        rfl
      refine .joins s.clients.length (by rw [waitsAt, fresh]; rfl) rfl fun j => ?_
      refine (congrArg (Option.any Client.waits) (client?_entered _ j)).trans ?_
      unfold waitsAt
      by_cases mine : j = s.clients.length
      · simp [mine, Client.waits]
      · simp [mine]
  · exact .keeps rfl fun _ => rfl
  · exact .keeps rfl fun _ => rfl
  · exact .keeps rfl fun _ => rfl

/-- The one account of what an event does to the turnstile. -/
theorem step_relined (lined : s.Lined) (e : ServerEvent) : s.Relined (s.step e) := by
  have unmoved : s.Relined s := .keeps rfl fun _ => rfl
  cases e with
  | arrives now req => exact s.arrive_relined now req
  | tries now =>
    simp only [step]
    cases holds : s.holder? now with
    | none => exact unmoved
    | some holder => exact attempt_relined lined holds
  | replies now i x =>
    simp only [step]
    cases found : (s.client? i).filter (·.sending?.isSome) with
    | none => exact unmoved
    | some c =>
      obtain ⟨here, sending⟩ := Option.filter_eq_some_iff.mp found
      exact answer_relined here sending x
  | builds now i =>
    simp only [step]
    cases here : s.client? i with
    | none => exact unmoved
    | some c =>
      refine keeps_of_moved (.builds now) rfl rfl here (Bool.eq_iff_iff.mpr ?_)
      rw [Client.waits_iff, Client.waits_iff, Client.resume_phase]
      exact Session.phase_of_builds ..
  | drops now i => exact s.drop_relined i
  | reports now => exact .keeps rfl fun _ => rfl

theorem Lined.passed {rest : List Nat} (lined : s.Lined) (line : s.line = i :: rest)
    (line' : s'.line = s.turnstile.handover rest)
    (waits : ∀ j, s'.waitsAt j = (s.waitsAt j && decide (j ≠ i))) : s'.Lined := by
  obtain ⟨nodup, members⟩ := lined
  have perm := s.turnstile.handover_perm rest
  rw [line, List.nodup_cons] at nodup
  refine ⟨line' ▸ perm.nodup_iff.mpr nodup.2, fun j => ?_⟩
  have before := members j
  rw [line, List.mem_cons] at before
  rw [line', perm.mem_iff, waits j, Bool.and_eq_true, ← before, decide_eq_true_eq]
  constructor
  · intro member
    refine ⟨.inr member, ?_⟩
    rintro rfl
    exact nodup.1 member
  · rintro ⟨same | member, other⟩
    · exact absurd same other
    · exact member

theorem Lined.relined (lined : s.Lined) (relined : s.Relined s') : s'.Lined := by
  cases relined with
  | joins i fresh line waits =>
    obtain ⟨nodup, members⟩ := lined
    have new : i ∉ s.line := by
      rw [members i, fresh]
      exact Bool.false_ne_true
    refine ⟨?_, fun j => ?_⟩
    · rw [line]
      refine List.nodup_append.mpr ⟨nodup, List.nodup_singleton i, ?_⟩
      intro a member b last same
      rw [List.mem_singleton.mp last] at same
      exact new (same ▸ member)
    · rw [line, waits j, List.mem_append, List.mem_singleton, members j]
      simp
  | serves i rest line line' there waits => exact lined.passed line line' waits
  | yields i rest line line' gone waits => exact lined.passed line line' waits
  | quits i away line gone waits =>
    refine ⟨line ▸ lined.nodup.filter _, fun j => ?_⟩
    rw [line, waits j, List.mem_filter, lined.waits j, Bool.and_eq_true]
  | keeps line waits => exact ⟨line ▸ lined.nodup, fun j => by rw [line, waits j, lined.waits j]⟩

theorem lined_run (lined : s.Lined) (es : List ServerEvent) : (s.after es).Lined := by
  have keep : ∀ (s : Server) (e : ServerEvent), s.Lined → (s.step e).Lined :=
    fun s e lined => lined.relined (step_relined lined e)
  exact Runs.exec_invariant' keep es lined

theorem lined_new (turnstile : Mutex) (host : Host) (uriError : String → Option String) (cfg : Config)
    (started : Instant) : (new turnstile host uriError cfg started).Lined :=
  ⟨List.nodup_nil, fun _ => iff_of_false List.not_mem_nil Bool.false_ne_true⟩

end Step

end Server

end BraveRotator
