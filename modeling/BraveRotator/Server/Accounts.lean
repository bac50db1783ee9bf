import BraveRotator.Pool.Stats
import BraveRotator.Server.Flights

namespace BraveRotator

theorem countP_set_add {α : Type*} {p : α → Bool} {l : List α} {i : Nat} {a : α}
    (here : l[i]? = some a) (b : α) :
    (l.set i b).countP p + (if p a then 1 else 0) = l.countP p + if p b then 1 else 0 := by
  induction l generalizing i with
  | nil => cases here
  | cons x l ih =>
    cases i with
    | zero =>
      cases here
      simp only [List.set_cons_zero, List.countP_cons]
      omega
    | succ i =>
      have rest := ih here
      simp only [List.set_cons_succ, List.countP_cons]
      omega

namespace Server

variable (i : Nat) (s : Server)

/-- The calls that wait for the outcome of a lease of the key. -/
def waiting : Nat := s.outs.countP fun o => o.any (·.idx = i)

def leased? (e : ServerEvent) : Option Nat := (s.call? e).bind s.pool.leased

/-- The key whose lease is lost, its call being dropped. -/
def abandoned? : ServerEvent → Option Nat
  | .drops _ j => (s.sends? j).map Lease.idx
  | _ => none

def abandoned (es : List ServerEvent) : List Nat :=
  (Runs.collect step abandoned? s es).filter (· = i)

/-- How often an event is about the key. -/
def times (o : Option Nat) : Nat := if o = some i then 1 else 0

section Step

variable {i s} {e : ServerEvent}

theorem times_none : times i none = 0 := rfl

theorem sends?_eq {j : Nat} {o : Option Lease} (here : s.outs[j]? = some o) : s.sends? j = o := by
  rw [sends?, here, Option.join_some]

theorem any_idx (lease : Lease) :
    (if (some lease).any (fun lease => decide (lease.idx = i)) then 1 else 0) =
      times i (some lease.idx) := by
  simp only [Option.any_some, decide_eq_true_eq, times, Option.some.injEq]

theorem abandoned?_of_undropped (undropped : ∀ now j, e ≠ .drops now j) : s.abandoned? e = none := by
  cases e with
  | drops now j => exact absurd rfl (undropped now j)
  | _ => rfl

theorem abandoned?_of_call {c : Call} (call : s.call? e = some c) : s.abandoned? e = none := by
  apply abandoned?_of_undropped
  rintro now j rfl
  cases call

/-- What goes out with an event, and what comes back, is lost, or still waits. -/
theorem waiting_step (i : Nat) (s : Server) (e : ServerEvent) :
    (s.step e).waiting i + ((s.call? e).bind (Call.recorded i)).toList.length +
        times i (s.abandoned? e) = s.waiting i + times i (s.leased? e) := by
  have carried := s.step_carried e
  unfold waiting
  generalize (s.step e).outs = outs at carried
  cases carried with
  | leases j now exclude lease call granted bare =>
    have count := countP_set_add (p := fun o : Option Lease => o.any (·.idx = i)) bare (some lease)
    have leased : s.leased? e = some lease.idx := by
      rw [leased?, call, Option.bind_some, Pool.leased, granted]
      rfl
    rw [any_idx] at count
    rw [leased, abandoned?_of_call call, call, times_none]
    simpa [Call.recorded] using count
  | records j now lease o call sending =>
    have count := countP_set_add (p := fun o : Option Lease => o.any (·.idx = i)) sending none
    have unleased : s.leased? e = none := by
      rw [leased?, call]
      rfl
    have recorded : ((some (Call.record now lease.idx o)).bind (Call.recorded i)).toList.length =
        times i (some lease.idx) := by
      simp only [Option.bind_some, Call.recorded, times, Option.some.injEq]
      split <;> rfl
    rw [any_idx] at count
    rw [unleased, abandoned?_of_call call, call, recorded, times_none]
    simpa using count
  | drops now j same =>
    subst same
    have quiet : s.call? (.drops now j) = none := rfl
    have unleased : s.leased? (.drops now j) = none := rfl
    rw [unleased, quiet, times_none]
    cases here : s.outs[j]? with
    | none =>
      have gone : s.abandoned? (.drops now j) = none := by
        rw [abandoned?, sends?, here]
        rfl
      rw [gone, times_none, List.set_eq_of_length_le (List.getElem?_eq_none_iff.mp here)]
      rfl
    | some o =>
      have count := countP_set_add (p := fun o : Option Lease => o.any (·.idx = i)) here none
      have lost : s.abandoned? (.drops now j) = o.map Lease.idx := by
        rw [abandoned?, sends?_eq here]
      rw [lost]
      cases o with
      | none => simpa [times] using count
      | some lease =>
        rw [any_idx] at count
        simpa using count
  | keeps fresh empty idle undropped =>
    have none : fresh.countP (fun o => o.any (·.idx = i)) = 0 := by
      refine List.countP_eq_zero.mpr fun o member => ?_
      rw [empty o member]
      exact Bool.false_ne_true
    have unleased : s.leased? e = Option.none := by
      unfold leased?
      cases call : s.call? e with
      | none => rfl
      | some c =>
        rw [Option.bind_some, Pool.leased, (idle c call).1]
        rfl
    have unrecorded : (s.call? e).bind (Call.recorded i) = Option.none := by
      cases call : s.call? e with
      | none => rfl
      | some c => exact (idle c call).2 i
    rw [List.countP_append, none, abandoned?_of_undropped undropped, unleased, unrecorded]
    rfl

theorem abandoned_cons (es : List ServerEvent) :
    (s.abandoned i (e :: es)).length = times i (s.abandoned? e) + ((s.step e).abandoned i es).length := by
  unfold abandoned
  rw [Runs.collect_cons, List.filter_append, List.length_append]
  congr 1
  cases s.abandoned? e with
  | none => rfl
  | some j =>
    by_cases same : j = i <;> simp [times, same]

theorem grants_cons (p : Pool) (c : Call) (cs : List Call) :
    (p.grants i (c :: cs)).length = times i (p.leased c) + ((p.step c).grants i cs).length := by
  rw [Pool.grants, Pool.leases, Runs.collect_cons, timesOf_append, List.length_append,
    Pool.timesOf_leased p c i]
  congr 1
  unfold times
  split <;> rfl

/-- The run lemma. -/
theorem waiting_run (es : List ServerEvent) :
    (s.after es).waiting i + ((s.calls es).filterMap (Call.recorded i)).length +
        (s.abandoned i es).length = s.waiting i + (s.pool.grants i (s.calls es)).length := by
  induction es generalizing s with
  | nil => rfl
  | cons e es ih =>
    have first := waiting_step i s e
    have rest := ih (s := s.step e)
    have grants : (s.pool.grants i (s.calls (e :: es))).length =
        times i (s.leased? e) + ((s.step e).pool.grants i ((s.step e).calls es)).length := by
      rw [calls, Runs.collect_cons, step_pool, leased?]
      cases s.call? e with
      | none => exact (Nat.zero_add _).symm
      | some c => exact grants_cons s.pool c _
    have records : ((s.calls (e :: es)).filterMap (Call.recorded i)).length =
        ((s.call? e).bind (Call.recorded i)).toList.length +
          (((s.step e).calls es).filterMap (Call.recorded i)).length := by
      rw [calls, Runs.collect_cons, List.filterMap_append, List.length_append, filterMap_toList]
      rfl
    rw [grants, records, abandoned_cons]
    show ((s.step e).after es).waiting i + _ + _ = _
    omega

end Step

section New

variable (turnstile : Mutex) (host : Host) (uriError : String → Option String) (cfg : Config)
  (started : Instant)

theorem length_eq_kinds (log : List Outcome) :
    log.length = log.countP (·.kind = .ok) + log.countP (·.kind = .tooMany) +
      log.countP (·.kind = .client) + log.countP (·.kind = .server) +
      log.countP (·.kind = .transport) + log.countP (·.kind = .other) := by
  induction log with
  | nil => rfl
  | cons o log ih =>
    simp only [List.length_cons, List.countP_cons, decide_eq_true_eq]
    cases o.kind <;> simp only [reduceCtorEq, if_true, if_false] <;> omega

/-- No upstream request is lost or counted twice: those that the status page counts for a key are the
    ones whose outcome it counts, or leaves out for its status, the ones that calls still wait for,
    and the ones whose calls were dropped. No counter wraps while the calls on the pool complete. -/
theorem requests_accounted (es : List ServerEvent) (i : Nat) (k : KeyState)
    (here : ((new turnstile host uriError cfg started).after es).pool.keys[i]? = some k) :
    k.stats.requests =
      k.stats.ok + k.stats.upstream429 + k.stats.client4xx + k.stats.server5xx +
        k.stats.transportErrors +
        (((new turnstile host uriError cfg started).calls es).filterMap (Call.recorded i)).countP
          (·.kind = .other) +
        ((new turnstile host uriError cfg started).after es).waiting i +
        ((new turnstile host uriError cfg started).abandoned i es).length ∧
      (Runs.Along Pool.step Pool.Completes (cfg.pool host)
        ((new turnstile host uriError cfg started).calls es) → k.stats.Fits) := by
  have run : _ = (new turnstile host uriError cfg started).waiting i + _ := waiting_run es
  have none : (new turnstile host uriError cfg started).waiting i = 0 := rfl
  rw [after_pool] at here
  have tells := Pool.stats_tell host cfg.keys _ _ i k here
  have kinds := length_eq_kinds
    (((new turnstile host uriError cfg started).calls es).filterMap (Call.recorded i))
  have counts := tells.counts
  have requests := tells.requests
  rw [← counts .ok nofun, ← counts .tooMany nofun, ← counts .client nofun, ← counts .server nofun,
    ← counts .transport nofun] at kinds
  simp only [Stats.count] at kinds
  have start : (new turnstile host uriError cfg started).pool = cfg.pool host := rfl
  rw [none, start] at run
  constructor
  · rw [requests]
    show ((cfg.pool host).grants i _).length = _
    omega
  · intro completes
    exact Pool.run_fits (Pool.new_fits host cfg.keys _) completes k (List.mem_of_getElem? here)

/-- A call that is dropped while upstream has its request. -/
def droppedCall : List ServerEvent := [.arrives 0 (.ofTests "/search"), .tries 0, .drops 1 0]

theorem dropped_call_accounted :
    ∃ k, ((ofTests ["first"]).after droppedCall).pool.keys[0]? = some k ∧ k.stats.requests = 1 ∧
      k.stats.requests =
        k.stats.ok + k.stats.upstream429 + k.stats.client4xx + k.stats.server5xx +
          k.stats.transportErrors +
          (((ofTests ["first"]).calls droppedCall).filterMap (Call.recorded 0)).countP (·.kind = .other) +
          ((ofTests ["first"]).after droppedCall).waiting 0 +
          ((ofTests ["first"]).abandoned 0 droppedCall).length ∧
      k.stats.Fits :=
  ⟨_, rfl, rfl,
    And.imp_right (fun fits => fits ⟨by decide, trivial⟩) (requests_accounted _ _ _ _ _ droppedCall 0 _ rfl)⟩

end New

end Server

end BraveRotator
