import BraveRotator.Model.Server
import BraveRotator.Proxy.Session

namespace BraveRotator

namespace Client

variable (c : Client) (s : Session)

@[simp] theorem resume_phase : (c.resume s).phase = s.phase := rfl

@[simp] theorem session_phase (p : Pool) : (c.session p).phase = c.phase := rfl

theorem waits_iff : c.waits = true ↔ c.phase = .acquiring := by
  unfold waits
  cases c.phase <;> simp

theorem sending?_eq_some {lease : Lease} : c.sending? = some lease ↔ c.phase = .sending lease := by
  unfold sending?
  cases c.phase <;> simp

end Client

namespace Server

variable (s : Server)

/-- The `proxy` call that an event moves on, and how. -/
def moves? : ServerEvent → Option (Nat × Client × ProxyEvent)
  | .tries now => (s.holder? now).map fun (i, c) => (i, c, .tries now)
  | .replies now i x => ((s.client? i).filter (·.sending?.isSome)).map (i, ·, .replies now x)
  | .builds now i => (s.client? i).map (i, ·, .builds now)
  | _ => none

/-- The look at the pool that one of the two pages of the process itself takes. -/
def visit? (now : Instant) (req : ClientRequest) : Option Call :=
  match route req with
  | .status => if authorized s.cfg req.headers then some (.snapshot now) else none
  | .health => some (.snapshot now)
  | _ => none

/-- The call under the pool's mutex that an event comes to. -/
def call? (e : ServerEvent) : Option Call :=
  match e with
  | .arrives now req => s.visit? now req
  | .reports now => some (.snapshot now)
  | e => (s.moves? e).bind fun (_, c, e) => (c.session s.pool).call? c.job e

def calls (es : List ServerEvent) : List Call := Runs.collect step call? s es

/-- What an event does to the process, its turnstile apart. -/
inductive Stepped (s : Server) (e : ServerEvent) : Server → Prop
  | moved (i : Nat) (c : Client) (pe : ProxyEvent) (line : List Nat) (asleep : Instant)
      (moves : s.moves? e = some (i, c, pe)) (here : s.client? i = some c) :
      Stepped s e { s.follow i c pe with line, asleep }
  | entered (now : Instant) (req : ClientRequest) (r : Forward) (line : List Nat)
      (same : e = .arrives now req) (routed : route req = .proxy) (accepted : req.accept s.cfg = .ok r) :
      Stepped s e
        { s with clients := s.clients ++ [some { job := r.job s.cfg s.upstream s.pool now }], line }
  | dropped (now : Instant) (i : Nat) (line : List Nat) (asleep : Instant) (same : e = .drops now i) :
      Stepped s e { s with clients := s.clients.set i none, line, asleep }
  | looked (p : Pool) (pool : p = s.pool.after (s.call? e).toList) (idle : s.moves? e = none)
      (quiet : ∀ c, s.call? e = some c → ∃ now, c = .snapshot now)
      (undropped : ∀ now i, e ≠ .drops now i) : Stepped s e { s with pool := p }

section Moves

variable {s} {now : Instant} {i : Nat} {c : Client}

theorem moves?_tries (now : Instant) :
    s.moves? (.tries now) = (s.holder? now).map fun holder => (holder.1, holder.2, .tries now) := rfl

theorem moves?_replies (now : Instant) (i : Nat) (x : Exchange) :
    s.moves? (.replies now i x) =
      ((s.client? i).filter (·.sending?.isSome)).map (i, ·, .replies now x) := rfl

theorem moves?_builds (now : Instant) (i : Nat) :
    s.moves? (.builds now i) = (s.client? i).map (i, ·, .builds now) := rfl

theorem holder?_client (holds : s.holder? now = some (i, c)) : s.client? i = some c := by
  unfold holder? at holds
  split at holds
  · obtain ⟨j, -, found⟩ := Option.bind_eq_some_iff.mp holds
    obtain ⟨c', here, same⟩ := Option.map_eq_some_iff.mp found
    cases same
    exact here
  · cases holds

/-- Which moves there are. -/
theorem moves?_cases {e : ServerEvent} {pe : ProxyEvent} (moves : s.moves? e = some (i, c, pe)) :
    (∃ now, e = .tries now ∧ pe = .tries now ∧ s.holder? now = some (i, c)) ∨
    (∃ now x lease, e = .replies now i x ∧ pe = .replies now x ∧ s.client? i = some c ∧
      c.phase = .sending lease) ∨
    ∃ now, e = .builds now i ∧ pe = .builds now ∧ s.client? i = some c := by
  cases e with
  | tries now =>
    rw [moves?_tries] at moves
    obtain ⟨holder, holds, same⟩ := Option.map_eq_some_iff.mp moves
    cases same
    exact .inl ⟨now, rfl, rfl, holds⟩
  | replies now j x =>
    rw [moves?_replies] at moves
    obtain ⟨c', found, same⟩ := Option.map_eq_some_iff.mp moves
    cases same
    obtain ⟨here, sending⟩ := Option.filter_eq_some_iff.mp found
    obtain ⟨lease, sends⟩ := Option.isSome_iff_exists.mp sending
    exact .inr (.inl ⟨now, x, lease, rfl, rfl, here, c.sending?_eq_some.mp sends⟩)
  | builds now j =>
    rw [moves?_builds] at moves
    obtain ⟨c', here, same⟩ := Option.map_eq_some_iff.mp moves
    cases same
    exact .inr (.inr ⟨now, rfl, rfl, here⟩)
  | _ => cases moves

theorem call?_of_moves {e : ServerEvent} {pe : ProxyEvent} (moves : s.moves? e = some (i, c, pe)) :
    s.call? e = (c.session s.pool).call? c.job pe := by
  cases e with
  | arrives now req => cases moves
  | drops now i => cases moves
  | reports now => cases moves
  | _ => simp only [call?, moves, Option.bind_some]

theorem made?_of_moves {e : ServerEvent} {pe : ProxyEvent} (moves : s.moves? e = some (i, c, pe)) :
    (c.session s.pool).made? c.job pe = s.call? e := by
  rw [call?_of_moves moves]
  rcases moves?_cases moves with ⟨now, -, rfl, -⟩ | ⟨now, x, lease, -, rfl, -⟩ | ⟨now, -, rfl, -⟩ <;> rfl

theorem call?_of_idle {e : ServerEvent} (idle : s.moves? e = none)
    (own : ∀ now req, e ≠ .arrives now req) (report : ∀ now, e ≠ .reports now) :
    s.call? e = none := by
  cases e with
  | arrives now req => exact absurd rfl (own now req)
  | reports now => exact absurd rfl (report now)
  | _ => simp only [call?, idle, Option.bind_none]

end Moves

section Step

variable {s} {now : Instant} {i : Nat} {c : Client}

theorem attempt_stepped (holds : s.holder? now = some (i, c)) :
    s.Stepped (.tries now) (s.attempt now i c) := by
  have moves : s.moves? (.tries now) = some (i, c, .tries now) := by
    rw [moves?_tries, holds]
    rfl
  unfold attempt
  dsimp only
  split
  · exact .moved i c _ _ _ moves (holder?_client holds)
  · exact .moved i c _ _ _ moves (holder?_client holds)

theorem answer_stepped (here : s.client? i = some c) (sending : c.sending?.isSome = true)
    (x : Exchange) : s.Stepped (.replies now i x) (s.answer now i c x) := by
  have moves : s.moves? (.replies now i x) = some (i, c, .replies now x) := by
    rw [moves?_replies, here, Option.filter_some, if_pos sending]
    rfl
  unfold answer
  dsimp only
  split
  · exact .moved i c _ _ _ moves here
  · exact .moved i c _ _ _ moves here

theorem drop_stepped (s : Server) (now : Instant) (i : Nat) : s.Stepped (.drops now i) (s.drop i) := by
  unfold drop
  dsimp only
  split
  · exact .dropped now i _ _ rfl
  · exact .dropped now i _ _ rfl

theorem stepped_of_same {e : ServerEvent} (idle : s.moves? e = none) (call : s.call? e = none)
    (undropped : ∀ now i, e ≠ .drops now i) : s.Stepped e s := by
  apply Stepped.looked s.pool _ idle _ undropped
  · rw [call]
    rfl
  · simp [call]

theorem arrive_stepped (s : Server) (now : Instant) (req : ClientRequest) :
    s.Stepped (.arrives now req) (s.arrive now req) := by
  unfold arrive
  cases routed : route req with
  | proxy =>
    unfold enter
    cases accepted : req.accept s.cfg with
    | error e => exact stepped_of_same rfl (by simp only [call?, visit?, routed]) nofun
    | ok r => exact .entered now req r _ rfl routed accepted
  | status =>
    by_cases allowed : authorized s.cfg req.headers = true
    · have call : s.call? (.arrives now req) = some (.snapshot now) := by
        simp only [call?, visit?, routed, allowed, if_true]
      refine .looked _ ?_ rfl (fun c same => ⟨now, ?_⟩) nofun
      · rw [call]
        unfold status
        rw [if_pos allowed]
        rfl
      · rw [call] at same
        exact (Option.some.inj same).symm
    · have call : s.call? (.arrives now req) = none := by
        simp only [call?, visit?, routed, allowed]
        rfl
      unfold status
      rw [if_neg allowed]
      exact stepped_of_same rfl call nofun
  | health =>
    have call : s.call? (.arrives now req) = some (.snapshot now) := by
      simp only [call?, visit?, routed]
    refine .looked _ ?_ rfl (fun c same => ⟨now, ?_⟩) nofun
    · rw [call]
      rfl
    · rw [call] at same
      exact (Option.some.inj same).symm
  | methodNotAllowed =>
    exact stepped_of_same rfl (by simp only [call?, visit?, routed]) nofun

/-- The one account of what an event does to the process. -/
theorem step_stepped (s : Server) (e : ServerEvent) : s.Stepped e (s.step e) := by
  cases e with
  | arrives now req => exact s.arrive_stepped now req
  | tries now =>
    simp only [step]
    cases holds : s.holder? now with
    | none =>
      have idle : s.moves? (.tries now) = none := by rw [moves?_tries, holds, Option.map_none]
      exact stepped_of_same idle (call?_of_idle idle nofun nofun) nofun
    | some holder => exact attempt_stepped holds
  | replies now i x =>
    simp only [step]
    cases found : (s.client? i).filter (·.sending?.isSome) with
    | none =>
      have idle : s.moves? (.replies now i x) = none := by
        rw [moves?_replies, found, Option.map_none]
      exact stepped_of_same idle (call?_of_idle idle nofun nofun) nofun
    | some c =>
      obtain ⟨here, sending⟩ := Option.filter_eq_some_iff.mp found
      exact answer_stepped here sending x
  | builds now i =>
    simp only [step]
    cases here : s.client? i with
    | none =>
      have idle : s.moves? (.builds now i) = none := by rw [moves?_builds, here, Option.map_none]
      exact stepped_of_same idle (call?_of_idle idle nofun nofun) nofun
    | some c =>
      have moves : s.moves? (.builds now i) = some (i, c, .builds now) := by
        rw [moves?_builds, here, Option.map_some]
      exact .moved i c _ _ _ moves here
  | drops now i => exact s.drop_stepped now i
  | reports now =>
    exact .looked _ rfl rfl (fun c same => ⟨now, (Option.some.inj same).symm⟩) nofun

end Step

section Clients

variable {s} {i j : Nat} {c : Client}

theorem inside_of_client (here : s.client? i = some c) : i < s.clients.length := by
  unfold client? at here
  cases found : s.clients[i]? with
  | none =>
    rw [found] at here
    cases here
  | some o => exact (List.getElem?_eq_some_iff.mp found).1

theorem client?_set (j : Nat) (o : Option Client) (inside : i < s.clients.length) :
    ((s.clients.set i o)[j]?).join = if j = i then o else s.client? j := by
  by_cases same : j = i
  · rw [if_pos same, same, List.getElem?_set_self inside, Option.join_some]
  · rw [if_neg same, List.getElem?_set_ne (Ne.symm same)]
    rfl

theorem client?_follow (here : s.client? i = some c) (e : ProxyEvent) (j : Nat) :
    (s.follow i c e).client? j =
      if j = i then some (c.resume (Session.step c.job (c.session s.pool) e)) else s.client? j :=
  client?_set j _ (inside_of_client here)

theorem client?_dropped (j : Nat) :
    ((s.clients.set i none)[j]?).join = if j = i then none else s.client? j := by
  by_cases inside : i < s.clients.length
  · exact client?_set j none inside
  · rw [List.set_eq_of_length_le (Nat.le_of_not_lt inside)]
    by_cases same : j = i
    · rw [if_pos same, same, List.getElem?_eq_none_iff.mpr (Nat.le_of_not_lt inside)]
      rfl
    · rw [if_neg same]
      rfl

theorem client?_entered (o : Option Client) (j : Nat) :
    ((s.clients ++ [o])[j]?).join = if j = s.clients.length then o else s.client? j := by
  unfold client?
  rcases Nat.lt_trichotomy j s.clients.length with lt | same | gt
  · rw [if_neg lt.ne, List.getElem?_append_left lt]
  · rw [if_pos same, same, List.getElem?_concat_length, Option.join_some]
  · rw [if_neg gt.ne', List.getElem?_eq_none_iff.mpr gt.le, List.getElem?_eq_none_iff.mpr]
    rw [List.length_append, List.length_singleton]
    exact gt

/-- Where a call comes from that is there after an event. -/
theorem client_cases {e : ServerEvent} {c' : Client} (there : (s.step e).client? j = some c') :
    s.client? j = some c' ∨
    (∃ c pe, s.moves? e = some (j, c, pe) ∧ s.client? j = some c ∧
      c' = c.resume (Session.step c.job (c.session s.pool) pe)) ∨
    ∃ now req r, e = .arrives now req ∧ j = s.clients.length ∧
      c' = { job := Forward.job r s.cfg s.upstream s.pool now } := by
  have stepped := s.step_stepped e
  generalize s.step e = s' at there stepped
  cases stepped with
  | moved i c pe line asleep moves here =>
    have found := (client?_follow here pe j).symm.trans there
    by_cases mine : j = i
    · rw [if_pos mine] at found
      subst mine
      exact .inr (.inl ⟨c, pe, moves, here, (Option.some.inj found).symm⟩)
    · rw [if_neg mine] at found
      exact .inl found
  | entered now req r line same routed accepted =>
    have found := (client?_entered _ j).symm.trans there
    by_cases new : j = s.clients.length
    · rw [if_pos new] at found
      exact .inr (.inr ⟨now, req, r, same, new, (Option.some.inj found).symm⟩)
    · rw [if_neg new] at found
      exact .inl found
  | dropped now i line asleep same =>
    have found := (client?_dropped j).symm.trans there
    by_cases mine : j = i
    · rw [if_pos mine] at found
      cases found
    · rw [if_neg mine] at found
      exact .inl found
  | looked p pool idle quiet undropped => exact .inl there

end Clients

section Pool

theorem call?_entered {now : Instant} {req : ClientRequest} (routed : route req = .proxy) :
    s.call? (.arrives now req) = none := by
  simp only [call?, visit?, routed]

/-- The pool changes by the calls under its mutex alone. -/
theorem step_pool (e : ServerEvent) : (s.step e).pool = s.pool.after (s.call? e).toList := by
  have stepped := s.step_stepped e
  generalize s.step e = s' at stepped
  cases stepped with
  | moved i c pe line asleep moves here =>
    rw [← made?_of_moves moves]
    exact Session.step_pool c.job (c.session s.pool) pe
  | entered now req r line same routed accepted =>
    rw [same, s.call?_entered routed]
    rfl
  | dropped now i line asleep same =>
    rw [same]
    rfl
  | looked p pool idle quiet undropped => exact pool

theorem after_append (as bs : List ServerEvent) : s.after (as ++ bs) = (s.after as).after bs :=
  Runs.exec_append ..

theorem after_pool (es : List ServerEvent) : (s.after es).pool = s.pool.after (s.calls es) := by
  induction es generalizing s with
  | nil => rfl
  | cons e es ih =>
    have rest := ih (s.step e)
    rw [step_pool, ← Pool.after_append] at rest
    exact rest

/-- What the process never changes. -/
theorem step_fixed (e : ServerEvent) :
    (s.step e).cfg = s.cfg ∧ (s.step e).upstream = s.upstream ∧ (s.step e).started = s.started ∧
      (s.step e).turnstile = s.turnstile := by
  have stepped := s.step_stepped e
  generalize s.step e = s' at stepped
  cases stepped <;> exact ⟨rfl, rfl, rfl, rfl⟩

theorem call?_time {e : ServerEvent} {call : Call} (called : s.call? e = some call) :
    call.time = e.time := by
  cases moves : s.moves? e with
  | none =>
    cases e with
    | arrives now req =>
      unfold call? visit? at called
      grind [Call.time, ServerEvent.time]
    | reports now =>
      cases called
      rfl
    | _ =>
      rw [call?_of_idle moves nofun nofun] at called
      cases called
  | some moved =>
    obtain ⟨i, c, pe⟩ := moved
    rw [call?_of_moves moves] at called
    rcases moves?_cases moves with ⟨now, rfl, rfl, -⟩ | ⟨now, x, lease, rfl, rfl, here, sending⟩ |
      ⟨now, rfl, rfl, here⟩
    · simp only [Session.call?, Client.session_phase] at called
      split at called
      · cases called
        rfl
      · cases called
    · simp only [Session.call?, Session.sent?, Client.session_phase, sending, Option.map_some] at called
      cases called
      rfl
    · simp only [Session.call?, Client.session_phase] at called
      split at called
      · cases called
        rfl
      · cases called

theorem calls_ordered {now : Instant} {es : List ServerEvent}
    (ordered : Runs.Ordered ServerEvent.time now es) : Runs.Ordered Call.time now (s.calls es) := by
  induction es generalizing s now with
  | nil => trivial
  | cons e es ih =>
    have rest := ih (s.step e) ordered.2
    rw [calls, Runs.collect_cons]
    cases called : s.call? e with
    | none => exact rest.weaken ordered.1
    | some call =>
      have time := s.call?_time called
      refine ⟨time ▸ ordered.1, ?_⟩
      rw [time]
      exact rest

end Pool

end Server

end BraveRotator
