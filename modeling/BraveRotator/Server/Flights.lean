import BraveRotator.Server.Sessions
import BraveRotator.Traffic.Ceiling

namespace BraveRotator

/-- The lease whose outcome a `proxy` call waits for. -/
def Phase.lease? : Phase → Option Lease
  | .sending lease => some lease
  | _ => none

def Client.out? (o : Option Client) : Option Lease := o.bind fun c => c.phase.lease?

namespace Session

section Out

variable {job : Job} {s : Session} {now : Instant} {lease : Lease}

theorem next_lease? (job : Job) (s : Session) : (s.next job).phase.lease? = none := by
  rcases s.next_cases job with ⟨-, same⟩ | ⟨-, up, label, -, same⟩ | ⟨-, -, detail, same⟩ <;>
    rw [same] <;> rfl

theorem receive_lease? (job : Job) (s : Session) (now : Instant) (lease : Lease)
    (result : Except UpstreamError UpstreamResponse) :
    (s.receive job now lease result).phase.lease? = none := by
  have received := receive_received job s now lease result
  generalize s.receive job now lease result = s' at received
  cases received with
  | settles up p settled => rfl
  | retries up p retry => exact next_lease? job _
  | fails e p => exact next_lease? job _

/-- What an event of the session's own comes to: the call it makes, and its lease afterwards. -/
inductive Carried (s : Session) : Option Call → Option Lease → Prop
  | leases (now : Instant) (lease : Lease) (bare : s.phase.lease? = none)
      (granted : s.pool.granted (.tryAcquire now s.tried) = some lease) :
      Carried s (some (.tryAcquire now s.tried)) (some lease)
  | records (now : Instant) (lease : Lease) (o : Outcome) (sending : s.phase.lease? = some lease) :
      Carried s (some (.record now lease.idx o)) none
  | keeps (call : Option Call)
      (idle : ∀ c, call = some c → s.pool.granted c = none ∧ ∀ i, c.recorded i = none) :
      Carried s call s.phase.lease?

theorem granted_of_leased {c : Call} (unleased : s.pool.leased c = none) :
    s.pool.granted c = none := Option.map_eq_none_iff.mp unleased

theorem carried_of_same {e : ProxyEvent} (same : step job s e = s) (quiet : s.call? job e = none) :
    s.Carried (s.call? job e) (step job s e).phase.lease? := by
  rw [same, quiet]
  refine .keeps none fun c made => ?_
  cases made

theorem step_carried (job : Job) (s : Session) (e : ProxyEvent) (own : ∀ c, e ≠ .others c) :
    s.Carried (s.call? job e) (step job s e).phase.lease? := by
  cases e with
  | others c => exact absurd rfl (own c)
  | tries now =>
    cases phase : s.phase with
    | acquiring =>
      have call : s.call? job (.tries now) = some (.tryAcquire now s.tried) := by
        simp only [call?, phase]
      have bare : s.phase.lease? = none := by rw [phase]; rfl
      have turned := step_turned job s (.tries now)
      generalize step job s (.tries now) = s' at turned
      rw [call]
      cases turned with
      | idles _ p unleased unsent =>
        rw [leased?_tries phase] at unleased
        refine .keeps _ fun c same => ?_
        cases same
        exact ⟨granted_of_leased unleased, fun _ => rfl⟩
      | leases now p lease acquiring granted => exact .leases now lease bare granted
      | fails now p e acquiring unleased =>
        rw [leased?_tries phase] at unleased
        have kept : (Phase.answered (.error (acquireFailed e))).lease? = s.phase.lease? := bare.symm
        show s.Carried _ (Phase.answered (.error (acquireFailed e))).lease?
        rw [kept]
        refine .keeps _ fun c same => ?_
        cases same
        exact ⟨granted_of_leased unleased, fun _ => rfl⟩
    | _ => exact carried_of_same (by simp only [step, phase]) (by simp only [call?, phase])
  | replies now x =>
    cases phase : s.phase with
    | sending lease =>
      have call : s.call? job (.replies now x) = some (.record now lease.idx
          (outcomeOf (job.upstream.send job.forward lease.token x))) := by
        simp only [call?, sent?_replies phase, Option.map_some]
      rw [call, step_replies phase, receive_lease?]
      exact .records now lease _ (by rw [phase]; rfl)
    | _ =>
      have unsent : s.sent? job (.replies now x) = none := by simp only [sent?, phase]
      exact carried_of_same (by simp only [step, phase])
        (by simp only [call?, unsent, Option.map_none])
  | builds now =>
    cases phase : s.phase with
    | building up label =>
      have call : s.call? job (.builds now) = some (.snapshot now) := by simp only [call?, phase]
      have kept : (step job s (.builds now)).phase.lease? = s.phase.lease? := by
        simp only [step, phase]
        rfl
      rw [call, kept]
      refine .keeps _ fun c same => ?_
      cases same
      exact ⟨rfl, fun _ => rfl⟩
    | _ => exact carried_of_same (by simp only [step, phase]) (by simp only [call?, phase])

end Out

end Session

namespace Server

variable (s : Server)

/-- The leases that are out, by the call that waits for the outcome. -/
def outs : List (Option Lease) := s.clients.map Client.out?

def sends? (i : Nat) : Option Lease := (s.outs[i]?).join

/-- What an event does to the leases that are out. -/
inductive Carried (s : Server) (e : ServerEvent) : List (Option Lease) → Prop
  | leases (i : Nat) (now : Instant) (exclude : List Nat) (lease : Lease)
      (call : s.call? e = some (.tryAcquire now exclude))
      (granted : s.pool.granted (.tryAcquire now exclude) = some lease)
      (bare : s.outs[i]? = some none) : Carried s e (s.outs.set i (some lease))
  | records (i : Nat) (now : Instant) (lease : Lease) (o : Outcome)
      (call : s.call? e = some (.record now lease.idx o)) (sending : s.outs[i]? = some (some lease)) :
      Carried s e (s.outs.set i none)
  | drops (now : Instant) (i : Nat) (same : e = .drops now i) : Carried s e (s.outs.set i none)
  | keeps (fresh : List (Option Lease)) (empty : ∀ o ∈ fresh, o = none)
      (idle : ∀ c, s.call? e = some c → s.pool.granted c = none ∧ ∀ i, c.recorded i = none)
      (undropped : ∀ now i, e ≠ .drops now i) : Carried s e (s.outs ++ fresh)

section Step

variable {s} {e : ServerEvent} {i : Nat} {c : Client}

theorem outs_of_client (here : s.client? i = some c) : s.outs[i]? = some c.phase.lease? := by
  unfold client? at here
  unfold outs
  rw [List.getElem?_map, Option.join_eq_some_iff.mp here]
  rfl

theorem outs_set (s : Server) (i : Nat) (o : Option Client) :
    (s.clients.set i o).map Client.out? = s.outs.set i (Client.out? o) := List.map_set

theorem outs_append (s : Server) (o : Option Client) :
    (s.clients ++ [o]).map Client.out? = s.outs ++ [Client.out? o] := List.map_append

theorem set_of_getElem? {α : Type*} {l : List α} {i : Nat} {a : α} (here : l[i]? = some a) :
    l.set i a = l := by
  obtain ⟨inside, rfl⟩ := List.getElem?_eq_some_iff.mp here
  exact List.set_getElem_self inside

/-- The one account of what an event does to the leases that are out. -/
theorem step_carried (s : Server) (e : ServerEvent) : s.Carried e (s.step e).outs := by
  have stepped := s.step_stepped e
  generalize s.step e = s' at stepped
  cases stepped with
  | moved i c pe line asleep moves here =>
    have own : ∀ call, pe ≠ .others call := by
      intro call
      rcases moves?_cases moves with ⟨now, -, rfl, -⟩ | ⟨now, x, lease, -, rfl, -⟩ | ⟨now, -, rfl, -⟩ <;>
        exact nofun
    have carried := Session.step_carried c.job (c.session s.pool) pe own
    have before := outs_of_client here
    have out := outs_set s i (some (c.resume (Session.step c.job (c.session s.pool) pe)))
    rw [← call?_of_moves moves] at carried
    have after : Client.out? (some (c.resume (Session.step c.job (c.session s.pool) pe))) =
        (Session.step c.job (c.session s.pool) pe).phase.lease? := rfl
    show s.Carried e (List.map _ (s.clients.set i _))
    rw [out, after]
    clear out after
    generalize called : s.call? e = made at carried
    generalize (Session.step c.job (c.session s.pool) pe).phase.lease? = after at carried
    cases carried with
    | leases now lease bare granted =>
      exact .leases i now _ lease called granted (before.trans (congrArg some bare))
    | records now lease o sending =>
      exact .records i now lease o called (before.trans (congrArg some sending))
    | keeps _ idle =>
      have same : s.outs.set i (c.session s.pool).phase.lease? = s.outs := set_of_getElem? before
      rw [same, ← List.append_nil s.outs]
      refine .keeps [] nofun (by rw [called]; exact idle) fun now j dropped => ?_
      subst dropped
      cases moves
  | entered now req r line same routed accepted =>
    show s.Carried e (List.map _ (s.clients ++ _))
    rw [outs_append]
    refine .keeps [none] (by simp) ?_ (by rw [same]; exact nofun)
    intro c call
    rw [same, s.call?_entered routed] at call
    cases call
  | dropped now i line asleep same =>
    show s.Carried e (List.map _ (s.clients.set i none))
    rw [outs_set]
    exact .drops now i same
  | looked p pool idle quiet undropped =>
    show s.Carried e s.outs
    rw [← List.append_nil s.outs]
    refine .keeps [] nofun ?_ undropped
    intro c call
    obtain ⟨now, rfl⟩ := quiet c call
    exact ⟨rfl, fun _ => rfl⟩

end Step

end Server

end BraveRotator
