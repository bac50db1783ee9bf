import BraveRotator.Server.Line

namespace BraveRotator

/-- A call in this phase has asked for the turnstile `n` times: once for each attempt, and once more for
    the attempt that it waits for, or got an error for. -/
def Phase.Asked (attempts n : Nat) : Phase → Prop
  | .acquiring => n = attempts + 1
  | .sending _ => n = attempts
  | .building .. => n = attempts
  | .answered _ => attempts ≤ n ∧ n ≤ attempts + 1

/-- An attempt that has failed leads back to the turnstile, or to an answer. -/
theorem Session.asked_next (job : Job) {s : Session} {n : Nat} (asked : n = s.attempts) :
    ((s.next job).phase.Asked (s.next job).attempts (n + 1) ∧ (s.next job).phase = .acquiring) ∨
      (s.next job).phase.Asked (s.next job).attempts n ∧ (s.next job).phase ≠ .acquiring := by
  subst asked
  rcases s.next_cases job with ⟨-, same⟩ | ⟨-, up, label, -, same⟩ | ⟨-, -, detail, same⟩
  · rw [same]
    exact .inl ⟨rfl, rfl⟩
  · rw [same]
    exact .inr ⟨rfl, nofun⟩
  · rw [same]
    exact .inr ⟨⟨le_rfl, Nat.le_succ _⟩, nofun⟩

/-- A call that comes to the turnstile has asked once more, and any other as often as before. -/
theorem Phase.Asked.turned {job : Job} {s s' : Session} {e : ProxyEvent} {n : Nat}
    (asked : s.phase.Asked s.attempts n) (turned : s.Turned job e s') :
    (s'.phase.Asked s'.attempts (n + 1) ∧ s.phase ≠ .acquiring ∧ s'.phase = .acquiring) ∨
      s'.phase.Asked s'.attempts n ∧ (s'.phase = .acquiring → s.phase = .acquiring) := by
  cases turned with
  | idles _ p unleased unsent => exact .inr ⟨asked, id⟩
  | leases now p lease acquiring granted =>
    rw [acquiring] at asked
    exact .inr ⟨asked, nofun⟩
  | fails now p err acquiring unleased =>
    rw [acquiring] at asked
    exact .inr ⟨⟨asked.ge.trans' (Nat.le_succ _), asked.le⟩, nofun⟩
  | receives now x lease sending =>
    rw [sending] at asked
    have busy : s.phase ≠ .acquiring := by
      rw [sending]
      exact nofun
    have received := Session.receive_received job s now lease
      (job.upstream.send job.forward lease.token x)
    generalize s.receive job now lease _ = s' at received
    generalize job.upstream.send job.forward lease.token x = result at received
    cases received with
    | settles up p settled => exact .inr ⟨asked, nofun⟩
    | retries up p retry =>
      rcases Session.asked_next job (s := { s with pool := p, lastResponse := some (up, lease.label) })
        asked with ⟨once, back⟩ | ⟨same, away⟩
      · exact .inl ⟨once, busy, back⟩
      · exact .inr ⟨same, fun back => absurd back away⟩
    | fails e p =>
      rcases Session.asked_next job (s := { s with pool := p, lastError := some e.text })
        asked with ⟨once, back⟩ | ⟨same, away⟩
      · exact .inl ⟨once, busy, back⟩
      · exact .inr ⟨same, fun back => absurd back away⟩
  | builds now up label building =>
    rw [building] at asked
    exact .inr ⟨⟨asked.ge, asked.le.trans (Nat.le_succ _)⟩, nofun⟩

namespace Server

variable (s : Server)

section Order

/-- The call that an event brings to the turnstile. -/
def asks? (e : ServerEvent) : Option Nat :=
  (List.range (s.step e).clients.length).find? fun i => (s.step e).waitsAt i && !s.waitsAt i

/-- The call that an event takes from the turnstile. -/
def leaves? (e : ServerEvent) : Option Nat :=
  (List.range s.clients.length).find? fun i => s.waitsAt i && !(s.step e).waitsAt i

/-- It goes on with a lease or an error. -/
def served? (e : ServerEvent) : Option Nat :=
  (s.leaves? e).filter fun i => ((s.step e).client? i).isSome

/-- It is dropped. -/
def quits? (e : ServerEvent) : Option Nat :=
  (s.leaves? e).filter fun i => ((s.step e).client? i).isNone

def asks (es : List ServerEvent) : List Nat := Runs.collect step asks? s es

def served (es : List ServerEvent) : List Nat := Runs.collect step served? s es

def quits (es : List ServerEvent) : List Nat := Runs.collect step quits? s es

theorem find?_only {p : Nat → Bool} {i n : Nat} (inside : i < n) (only : ∀ j, p j = decide (j = i)) :
    (List.range n).find? p = some i := by
  refine List.find?_range_eq_some.mpr ⟨?_, List.mem_range.mpr inside, fun j before => ?_⟩
  · rw [only, decide_eq_true rfl]
  · rw [only, decide_eq_false before.ne]
    rfl

theorem find?_never {p : Nat → Bool} {n : Nat} (never : ∀ j, p j = false) :
    (List.range n).find? p = none := by
  refine List.find?_eq_none.mpr fun j _ => ?_
  rw [never]
  exact Bool.false_ne_true

variable {s} {e : ServerEvent}

theorem inside_of_waitsAt {i : Nat} (waits : s.waitsAt i = true) : i < s.clients.length := by
  unfold waitsAt at waits
  cases here : s.client? i with
  | none =>
    rw [here] at waits
    cases waits
  | some c => exact inside_of_client here

/-- An event moves the line, and is told from who waits before and after it. -/
inductive Ordered (s : Server) (e : ServerEvent) : Prop
  | asks (i : Nat) (line : (s.step e).line = s.line ++ [i]) (asks : s.asks? e = some i)
      (served : s.served? e = none) (quits : s.quits? e = none)
  | serves (i : Nat) (rest : List Nat) (line : s.line = i :: rest)
      (line' : (s.step e).line = s.turnstile.handover rest) (asks : s.asks? e = none)
      (served : s.served? e = some i) (quits : s.quits? e = none)
  | yields (i : Nat) (rest : List Nat) (line : s.line = i :: rest)
      (line' : (s.step e).line = s.turnstile.handover rest) (asks : s.asks? e = none)
      (served : s.served? e = none) (quits : s.quits? e = some i)
  | quits (i : Nat) (away : s.line.head? ≠ some i) (line : (s.step e).line = s.line.erase i)
      (member : i ∈ s.line) (asks : s.asks? e = none) (served : s.served? e = none)
      (quits : s.quits? e = some i)
  | keeps (line : (s.step e).line = s.line) (asks : s.asks? e = none) (served : s.served? e = none)
      (quits : s.quits? e = none)

theorem ordered_of_leaves {i : Nat} (left : s.leaves? e = some i) :
    (((s.step e).client? i).isSome = true → s.served? e = some i ∧ s.quits? e = none) ∧
      ((s.step e).client? i = none → s.served? e = none ∧ s.quits? e = some i) := by
  unfold served? quits?
  rw [left]
  constructor
  · intro there
    rw [Option.isSome_iff_exists] at there
    obtain ⟨c, there⟩ := there
    simp [there]
  · intro gone
    simp [gone]

theorem ordered_of_stays (left : s.leaves? e = none) : s.served? e = none ∧ s.quits? e = none := by
  unfold served? quits?
  rw [left]
  exact ⟨rfl, rfl⟩

theorem asks?_none (fewer : ∀ j, (s.step e).waitsAt j = true → s.waitsAt j = true) :
    s.asks? e = none := by
  apply find?_never
  intro j
  cases waits : (s.step e).waitsAt j with
  | false => rfl
  | true => rw [fewer j waits]; rfl

theorem leaves?_none (more : ∀ j, s.waitsAt j = true → (s.step e).waitsAt j = true) :
    s.leaves? e = none := by
  apply find?_never
  intro j
  cases waits : s.waitsAt j with
  | false => rfl
  | true => rw [more j waits]; rfl

theorem asks?_some {i : Nat} (fresh : s.waitsAt i = false)
    (waits : ∀ j, (s.step e).waitsAt j = (s.waitsAt j || decide (j = i))) : s.asks? e = some i := by
  have after : (s.step e).waitsAt i = true := by rw [waits i, decide_eq_true rfl, Bool.or_true]
  apply find?_only (inside_of_waitsAt after)
  intro j
  rw [waits j]
  by_cases mine : j = i
  · simp [mine, fresh]
  · simp [mine]

theorem leaves?_some {i : Nat} (before : s.waitsAt i = true)
    (waits : ∀ j, (s.step e).waitsAt j = (s.waitsAt j && decide (j ≠ i))) : s.leaves? e = some i := by
  apply find?_only (inside_of_waitsAt before)
  intro j
  rw [waits j]
  by_cases mine : j = i
  · simp [mine, before]
  · simp [mine]

theorem asks?_of_leaving {i : Nat}
    (waits : ∀ j, (s.step e).waitsAt j = (s.waitsAt j && decide (j ≠ i))) : s.asks? e = none := by
  apply asks?_none
  intro j after
  rw [waits j] at after
  exact (Bool.and_eq_true_iff.mp after).1

theorem step_ordered (lined : s.Lined) (e : ServerEvent) : s.Ordered e := by
  have relined := step_relined lined e
  cases relined with
  | joins i fresh line waits =>
    have left : s.leaves? e = none := leaves?_none fun j before => by rw [waits j, before, Bool.true_or]
    exact .asks i line (asks?_some fresh waits) (ordered_of_stays left).1 (ordered_of_stays left).2
  | serves i rest line line' there waits =>
    obtain ⟨served, quits⟩ := (ordered_of_leaves (leaves?_some (lined.head_waits line) waits)).1 there
    exact .serves i rest line line' (asks?_of_leaving waits) served quits
  | yields i rest line line' gone waits =>
    obtain ⟨served, quits⟩ := (ordered_of_leaves (leaves?_some (lined.head_waits line) waits)).2 gone
    exact .yields i rest line line' (asks?_of_leaving waits) served quits
  | quits i away line gone waits =>
    have asks := asks?_of_leaving waits
    by_cases before : s.waitsAt i = true
    · obtain ⟨served, quits⟩ := (ordered_of_leaves (leaves?_some before waits)).2 gone
      refine .quits i away ?_ ((lined.waits i).mpr before) asks served quits
      rw [line, lined.nodup.erase_eq_filter]
      refine List.filter_congr fun j _ => ?_
      by_cases mine : j = i <;> simp [mine]
    · have absent : i ∉ s.line := fun member => before ((lined.waits i).mp member)
      have left : s.leaves? e = none := leaves?_none fun j waited => by
        have other : j ≠ i := fun same => before (same ▸ waited)
        rw [waits j, waited, decide_eq_true other, Bool.and_self]
      refine .keeps ?_ asks (ordered_of_stays left).1 (ordered_of_stays left).2
      rw [line, List.filter_eq_self]
      intro j member
      exact decide_eq_true fun same => absent (same ▸ member)
  | keeps line waits =>
    have asks : s.asks? e = none := asks?_none fun j after => (waits j).symm.trans after
    have left : s.leaves? e = none := leaves?_none fun j before => (waits j).trans before
    exact .keeps line asks (ordered_of_stays left).1 (ordered_of_stays left).2

theorem asks_cons (s : Server) (e : ServerEvent) (es : List ServerEvent) :
    s.asks (e :: es) = (s.asks? e).toList ++ (s.step e).asks es := rfl

theorem served_cons (s : Server) (e : ServerEvent) (es : List ServerEvent) :
    s.served (e :: es) = (s.served? e).toList ++ (s.step e).served es := rfl

theorem quits_cons (s : Server) (e : ServerEvent) (es : List ServerEvent) :
    s.quits (e :: es) = (s.quits? e).toList ++ (s.step e).quits es := rfl

theorem after_cons (s : Server) (e : ServerEvent) (es : List ServerEvent) :
    s.after (e :: es) = (s.step e).after es := rfl

/-- Behind a fair mutex nobody overtakes. -/
theorem order_run (fair : s.turnstile.Fair) (lined : s.Lined) (es : List ServerEvent) :
    (s.served es ++ (s.after es).line).Sublist (s.line ++ s.asks es) := by
  induction es generalizing s with
  | nil => simp [served, asks, after]
  | cons e es ih =>
    have same := (s.step_fixed e).2.2.2
    have sublist := ih (same ▸ fair) (lined.relined (step_relined lined e))
    rw [asks_cons, served_cons, after_cons]
    cases step_ordered lined e with
    | asks i line asks served quits =>
      rw [line, List.append_assoc] at sublist
      rw [asks, served]
      exact sublist
    | serves i rest line line' asks served quits =>
      rw [line', fair] at sublist
      rw [line, asks, served]
      exact sublist.cons_cons i
    | yields i rest line line' asks served quits =>
      rw [line', fair] at sublist
      rw [line, asks, served]
      exact sublist.trans (List.sublist_cons_self ..)
    | quits i away line member asks served quits =>
      rw [line] at sublist
      rw [asks, served]
      exact sublist.trans ((List.erase_sublist).append_right _)
    | keeps line asks served quits =>
      rw [line] at sublist
      rw [asks, served]
      exact sublist

/-- Nobody is forgotten. -/
theorem whole_run (lined : s.Lined) (es : List ServerEvent) :
    (s.line ++ s.asks es).Perm (s.served es ++ (s.after es).line ++ s.quits es) := by
  induction es generalizing s with
  | nil => simp [served, asks, quits, after]
  | cons e es ih =>
    have perm := ih (lined.relined (step_relined lined e))
    have later : ∀ {i}, ((i :: (s.step e).line) ++ (s.step e).asks es).Perm
        ((s.step e).served es ++ ((s.step e).after es).line ++ (i :: (s.step e).quits es)) :=
      (perm.cons _).trans List.perm_middle.symm
    rw [asks_cons, served_cons, quits_cons, after_cons]
    cases step_ordered lined e with
    | asks i line asks served quits =>
      rw [line, List.append_assoc] at perm
      rw [asks, served, quits]
      exact perm
    | serves i rest line line' asks served quits =>
      rw [line'] at perm
      rw [line, asks, served, quits]
      have moved := (s.turnstile.handover_perm rest).symm.append_right ((s.step e).asks es)
      exact (moved.trans perm).cons i
    | yields i rest line line' asks served quits =>
      rw [line'] at later
      rw [line, asks, served, quits]
      have moved := ((s.turnstile.handover_perm rest).symm.cons i).append_right ((s.step e).asks es)
      exact moved.trans later
    | quits i away line member asks served quits =>
      rw [line] at later
      rw [asks, served, quits]
      have moved : s.line.Perm (i :: s.line.erase i) := List.perm_cons_erase member
      exact (moved.append_right _).trans later
    | keeps line asks served quits =>
      rw [line] at perm
      rw [asks, served, quits]
      exact perm

/-- The holder keeps the turnstile, asleep or not, until it is served or dropped. -/
theorem head_stays (lined : s.Lined) {i : Nat} (holds : s.line.head? = some i)
    (waiting : s.served? e ≠ some i) (staying : s.quits? e ≠ some i) :
    (s.step e).line.head? = some i := by
  obtain ⟨tail, first⟩ := List.head?_eq_some_iff.mp holds
  cases step_ordered lined e with
  | asks j line asks served quits =>
    rw [line, first]
    rfl
  | serves j rest line line' asks served quits =>
    obtain ⟨rfl, -⟩ := List.cons_eq_cons.mp (first.symm.trans line)
    exact absurd served waiting
  | yields j rest line line' asks served quits =>
    obtain ⟨rfl, -⟩ := List.cons_eq_cons.mp (first.symm.trans line)
    exact absurd quits staying
  | quits j away line member asks served quits =>
    have other : i ≠ j := fun same => away (same ▸ holds)
    rw [line, first, List.erase_cons_tail (by simpa using other)]
    rfl
  | keeps line asks served quits =>
    rw [line]
    exact holds

theorem head_stays_run (lined : s.Lined) {i : Nat} (holds : s.line.head? = some i)
    {es : List ServerEvent} (waiting : i ∉ s.served es) (staying : i ∉ s.quits es) :
    (s.after es).line.head? = some i := by
  induction es generalizing s with
  | nil => exact holds
  | cons e es ih =>
    rw [served_cons, List.mem_append, not_or] at waiting
    rw [quits_cons, List.mem_append, not_or] at staying
    have next := head_stays lined holds (fun served => waiting.1 (served ▸ List.mem_singleton_self i))
      fun quits => staying.1 (quits ▸ List.mem_singleton_self i)
    exact ih (lined.relined (step_relined lined e)) next waiting.2 staying.2

end Order

section Anew

variable {s : Server} {e : ServerEvent}

theorem asks?_eq_some_iff (lined : s.Lined) {i : Nat} :
    s.asks? e = some i ↔ s.waitsAt i = false ∧ (s.step e).waitsAt i = true := by
  constructor
  · intro asks
    have found := List.find?_some asks
    rw [Bool.and_eq_true, Bool.not_eq_true'] at found
    exact found.symm
  · rintro ⟨before, after⟩
    cases step_relined lined e with
    | joins j fresh line waits =>
      have same : i = j := by
        rw [waits i, before, Bool.false_or] at after
        exact of_decide_eq_true after
      subst same
      exact asks?_some fresh waits
    | serves j rest line line' there waits =>
      rw [waits i, before] at after
      cases after
    | yields j rest line line' gone waits =>
      rw [waits i, before] at after
      cases after
    | quits j away line gone waits =>
      rw [waits i, before] at after
      cases after
    | keeps line waits =>
      rw [waits i, before] at after
      cases after

/-- What holds of the calls and of those who have come to the turnstile so far. -/
structure Anew (history : List Nat) (s : Server) : Prop where
  lined : s.Lined
  inside : ∀ i ∈ history, i < s.clients.length
  asked : ∀ i c, s.client? i = some c → c.phase.Asked c.attempts (history.count i)

theorem anew_step {history : List Nat} (anew : Anew history s) (e : ServerEvent) :
    Anew (history ++ (s.asks? e).toList) (s.step e) := by
  have asks : ∀ j, s.asks? e = some j ↔ s.waitsAt j = false ∧ (s.step e).waitsAt j = true :=
    fun j => asks?_eq_some_iff anew.lined
  have count : ∀ j, (history ++ (s.asks? e).toList).count j =
      history.count j + if s.asks? e = some j then 1 else 0 := by
    intro j
    rw [List.count_append]
    cases s.asks? e with
    | none => simp
    | some i => by_cases same : i = j <;> simp [same]
  refine ⟨anew.lined.relined (step_relined anew.lined e), ?_, ?_⟩
  · intro i member
    rcases List.mem_append.mp member with earlier | newly
    · exact (anew.inside i earlier).trans_le (s.length_le_step e)
    · have asked := (asks i).mp (Option.mem_toList.mp newly)
      exact inside_of_waitsAt asked.2
  · intro j c' there
    have after : (s.step e).waitsAt j = c'.waits := waitsAt_of_client there
    rw [count j]
    rcases client_cases there with here | ⟨c, pe, -, here, rfl⟩ | ⟨now, req, r, -, new, rfl⟩
    · have unasked : s.asks? e ≠ some j := by
        rw [Ne, asks, after, waitsAt_of_client here]
        exact fun both => Bool.false_ne_true (both.1.symm.trans both.2)
      rw [if_neg unasked]
      exact anew.asked j c' here
    · have before := waitsAt_of_client here
      have asked : (c.session s.pool).phase.Asked (c.session s.pool).attempts (history.count j) :=
        anew.asked j c here
      rcases asked.turned (Session.step_turned c.job (c.session s.pool) pe) with
        ⟨once, fresh, acquiring⟩ | ⟨same, waiting⟩
      · have newly : s.asks? e = some j := by
          rw [asks, before, after]
          refine ⟨Bool.eq_false_iff.mpr ?_, (Client.waits_iff _).mpr acquiring⟩
          exact fun waits => fresh (c.waits_iff.mp waits)
        rw [if_pos newly]
        exact once
      · have unasked : s.asks? e ≠ some j := by
          rw [Ne, asks, before, after]
          rintro ⟨idle, waits⟩
          have acquiring := waiting ((Client.waits_iff _).mp waits)
          rw [c.waits_iff.mpr acquiring] at idle
          cases idle
        rw [if_neg unasked]
        exact same
    · have absent : j ∉ history := fun member => (anew.inside j member).ne new
      have gone : s.waitsAt j = false := by
        rw [waitsAt, client?, new, List.getElem?_eq_none_iff.mpr le_rfl]
        rfl
      have newly : s.asks? e = some j := (asks j).mpr ⟨gone, after⟩
      rw [if_pos newly, List.count_eq_zero.mpr absent]
      exact rfl

theorem anew_run (anew : Anew [] s) (es : List ServerEvent) : Anew (s.asks es) (s.after es) :=
  Runs.collected_invariant' (I := Anew) (fun _ _ e anew => anew_step anew e) es anew

end Anew

/-- How the turnstile treats the calls of `acquire` in a run. -/
structure Serves (s : Server) (es : List ServerEvent) : Prop where
  /-- They are served in the order in which they came to it, whoever drops out in between. -/
  inOrder : (s.served es ++ (s.after es).line).Sublist (s.asks es)
  /-- Each of them is served, waits in line, or has dropped out. -/
  whole : (s.asks es).Perm (s.served es ++ (s.after es).line ++ s.quits es)
  lined : ∀ i, i ∈ (s.after es).line ↔ (s.after es).waitsAt i = true
  /-- Nobody gets a turn while the holder sleeps. -/
  held : ∀ before now during now' after i c j c',
    es = before ++ .tries now :: (during ++ .tries now' :: after) →
    (s.after before).holder? now = some (i, c) →
    (s.after (before ++ .tries now :: during)).holder? now' = some (j, c') →
    j = i ∨ i ∈ (s.after before).served (.tries now :: during) ∨
      i ∈ (s.after before).quits (.tries now :: during)
  /-- A call comes to it anew for each of its attempts. -/
  anew : ∀ i c, (s.after es).client? i = some c → c.phase.Asked c.attempts ((s.asks es).count i)

section New

variable (turnstile : Mutex) (host : Host) (uriError : String → Option String) (cfg : Config)
  (started : Instant)

theorem anew_new : Anew [] (new turnstile host uriError cfg started) where
  lined := lined_new turnstile host uriError cfg started
  inside _ member := by cases member
  asked _ _ here := by cases here

/-- Behind a fair mutex the turnstile serves the calls of `acquire` in the order of arrival. -/
theorem served_in_order (fair : turnstile.Fair) (es : List ServerEvent) :
    (new turnstile host uriError cfg started).Serves es := by
  have start := lined_new turnstile host uriError cfg started
  refine ⟨order_run fair start es, whole_run start es, (lined_run start es).waits, ?_, ?_⟩
  · intro before now during now' after i c j c' split first second
    have lined := lined_run start before
    obtain ⟨-, rest, line⟩ := holder?_line first
    obtain ⟨-, rest', line'⟩ := holder?_line second
    by_cases served : i ∈ ((new turnstile host uriError cfg started).after before).served
      (.tries now :: during)
    · exact .inr (.inl served)
    by_cases quits : i ∈ ((new turnstile host uriError cfg started).after before).quits
      (.tries now :: during)
    · exact .inr (.inr quits)
    left
    have stays := head_stays_run lined (by rw [line]; rfl) served quits
    rw [← after_append, line'] at stays
    exact Option.some.inj stays
  · exact (anew_run (anew_new turnstile host uriError cfg started) es).asked

end New

/-- Two calls share a key, and the second waits behind the sleep of the first. -/
def oneBehind : List ServerEvent :=
  [.arrives 0 (.ofTests "/"), .tries 0, .arrives 1 (.ofTests "/"), .arrives 2 (.ofTests "/"),
    .tries 3, .tries 1100000000]

theorem served_in_order_behind :
    (ofTests ["key"]).served oneBehind = [0, 1] ∧ (ofTests ["key"]).Serves oneBehind :=
  ⟨by decide, served_in_order _ _ _ _ _ Mutex.fair_fifo oneBehind⟩

end Server

end BraveRotator
