import BraveRotator.Lib.Runs
import Mathlib.Data.Nat.Basic

/-! A lock that is handed on in the order of arrival. Its holder tries, sleeps until the instant that
    the refusal named and tries again; when it is through, the next in line has its turn. -/

namespace Turnstile

variable {σ ε χ ρ : Type*}

structure Ticket (χ : Type*) where
  made : Nat
  deadline : Nat
  request : χ

/-- Up to when the one who waits is willing to. -/
def Ticket.latest (w : Ticket χ) : Nat := max w.made w.deadline

inductive Turn (ρ : Type*) where
  | ends (result : ρ)
  | sleeps (instant : Nat)

structure Returned (χ ρ : Type*) where
  ticket : Ticket χ
  time : Nat
  result : ρ

structure State (σ χ ρ : Type*) where
  shared : σ
  /-- Who holds the lock, asleep until the instant. -/
  holder : Option (Ticket χ × Nat)
  queue : List (Ticket χ)
  returned : List (Returned χ ρ)

def State.free (s : σ) : State σ χ ρ := { shared := s, holder := none, queue := [], returned := [] }

def State.waiting (s : State σ χ ρ) : List (Ticket χ) := (s.holder.map Prod.fst).toList ++ s.queue

inductive Event (ε χ : Type*) where
  | arrives (now deadline : Nat) (request : χ)
  | wakes (now : Nat)
  | touches (e : ε)

section Run

variable (turn : σ → Nat → Ticket χ → σ × Turn ρ) (touch : σ → ε → σ) (instant : ε → Nat)

def Event.time : Event ε χ → Nat
  | .arrives now _ _ => now
  | .wakes now => now
  | .touches e => instant e

def Event.ticket? : Event ε χ → Option (Ticket χ)
  | .arrives now deadline request => some { made := now, deadline, request }
  | _ => none

def Event.wake? : Event ε χ → Option Nat
  | .wakes now => some now
  | _ => none

/-- Turn after turn at one instant, until someone goes to sleep. -/
def passOn (now : Nat) (s : σ) (returned : List (Returned χ ρ)) : List (Ticket χ) → State σ χ ρ
  | [] => { shared := s, holder := none, queue := [], returned }
  | w :: queue =>
    match turn s now w with
    | (s, .ends result) => passOn now s (returned ++ [{ ticket := w, time := now, result }]) queue
    | (s, .sleeps u) => { shared := s, holder := some (w, u), queue, returned }

def step (s : State σ χ ρ) : Event ε χ → State σ χ ρ
  | .arrives now deadline request =>
    let queue := s.queue ++ [{ made := now, deadline, request }]
    match s.holder with
    | none => passOn turn now s.shared s.returned queue
    | some _ => { s with queue }
  | .wakes now =>
    match s.holder with
    | none => s
    | some (w, _) => passOn turn now s.shared s.returned (w :: s.queue)
  | .touches e => { s with shared := touch s.shared e }

/-- Sleeps are exact: nothing happens past the instant at which the holder wakes up, and it does not
    wake up before. -/
def Punctual (s : State σ χ ρ) (e : Event ε χ) : Prop :=
  ∀ h ∈ s.holder, e.time instant ≤ h.2 ∧ ∀ now ∈ e.wake?, now = h.2

instance (s : State σ χ ρ) (e : Event ε χ) : Decidable (Punctual instant s e) :=
  inferInstanceAs (Decidable (∀ h ∈ s.holder, _))

/-- A sleep ends in the future, and not after the deadline. -/
def Bounded : Prop :=
  ∀ s now w s' u, turn s now w = (s', .sleeps u) → now < u ∧ u ≤ w.deadline

def OnTime (s : State σ χ ρ) : Prop := ∀ r ∈ s.returned, r.time ≤ r.ticket.latest

instance (s : State σ χ ρ) : Decidable (OnTime s) :=
  inferInstanceAs (Decidable (∀ r ∈ s.returned, _))

/-- Nobody stands behind a holder that sleeps past what the one behind is willing to wait. -/
def NoneOutslept (s : State σ χ ρ) : Prop :=
  ∀ h ∈ s.holder, ∀ v ∈ s.queue, h.2 ≤ v.latest

/-- The lock is in the hands of someone who sleeps in time, or nobody waits for it. -/
structure Held (s : State σ χ ρ) : Prop where
  bounded : ∀ w u, s.holder = some (w, u) → u ≤ w.deadline
  unclaimed : s.holder = none → s.queue = []

variable {turn touch instant} {now : Nat} {s : State σ χ ρ} {e : Event ε χ}

theorem Held.waiting_nil (held : Held s) (free : s.holder = none) : s.waiting = [] := by
  unfold State.waiting
  rw [free, held.unclaimed free]
  rfl

/-- What passing the lock on comes to. -/
structure Passed (now : Nat) (returned : List (Returned χ ρ)) (ws : List (Ticket χ))
    (s : State σ χ ρ) (fresh : List (Returned χ ρ)) : Prop extends Held s where
  returned : s.returned = returned ++ fresh
  served : fresh.map Returned.ticket ++ s.waiting = ws
  time : ∀ r ∈ fresh, r.time = now
  future : ∀ w u, s.holder = some (w, u) → now < u

theorem passOn_passed (bounded : Bounded turn) (now : Nat) (s : σ)
    (returned : List (Returned χ ρ)) (ws : List (Ticket χ)) :
    ∃ fresh, Passed now returned ws (passOn turn now s returned ws) fresh := by
  induction ws generalizing s returned with
  | nil => exact ⟨[], ⟨nofun, fun _ => rfl⟩, (List.append_nil _).symm, rfl, nofun, nofun⟩
  | cons w queue ih =>
    unfold passOn
    cases result : turn s now w with
    | mk s' turned =>
      cases turned with
      | ends r =>
        obtain ⟨fresh, passed⟩ := ih s' (returned ++ [{ ticket := w, time := now, result := r }])
        refine ⟨{ ticket := w, time := now, result := r } :: fresh, passed.toHeld, ?_, ?_, ?_,
          passed.future⟩
        · rw [passed.returned, List.append_assoc]
          rfl
        · exact congrArg (w :: ·) passed.served
        · intro r' member
          cases member with
          | head => rfl
          | tail _ member => exact passed.time r' member
      | sleeps u =>
        obtain ⟨future, inTime⟩ := bounded s now w s' u result
        refine ⟨[], ⟨?_, nofun⟩, (List.append_nil _).symm, rfl, nofun, ?_⟩
        · intro w' u' same
          cases same
          exact inTime
        · intro w' u' same
          cases same
          exact future

/-- What an event does: it leaves everyone in their place, or passes the lock on to those who wait. -/
inductive Stepped (instant : ε → Nat) (s : State σ χ ρ) (e : Event ε χ) (s' : State σ χ ρ) : Prop
  | stays (holder : s'.holder = s.holder) (returned : s'.returned = s.returned)
      (queue : s'.queue = s.queue ++ e.ticket?.toList)
      (claimed : s.holder = none → e.ticket? = none)
      (settled : e.wake? ≠ none → s.holder = none)
  | passes (fresh : List (Returned χ ρ))
      (passed : Passed (e.time instant) s.returned (s.waiting ++ e.ticket?.toList) s' fresh)
      (turned : s.holder = none ∨ e.wake? = some (e.time instant))

variable (touch instant) in
theorem step_stepped (bounded : Bounded turn) (s : State σ χ ρ) (e : Event ε χ) :
    Stepped instant s e (step turn touch s e) := by
  cases e with
  | arrives now deadline request =>
    cases held : s.holder with
    | none =>
      have all : s.waiting = s.queue := by
        unfold State.waiting
        rw [held]
        rfl
      obtain ⟨fresh, passed⟩ := passOn_passed bounded now s.shared s.returned
        (s.queue ++ [{ made := now, deadline, request }])
      rw [← all] at passed
      unfold step
      simp only [held]
      rw [← all]
      exact .passes fresh passed (.inl held)
    | some holder =>
      unfold step
      simp only [held]
      exact .stays held.symm rfl rfl (fun none => by rw [held] at none; cases none)
        (fun wakes => absurd rfl wakes)
  | wakes now =>
    unfold step
    cases held : s.holder with
    | none => exact .stays rfl rfl (List.append_nil _).symm (fun _ => rfl) (fun _ => held)
    | some holder =>
      obtain ⟨fresh, passed⟩ := passOn_passed bounded now s.shared s.returned (holder.1 :: s.queue)
      have all : s.waiting = holder.1 :: s.queue := by
        unfold State.waiting
        rw [held]
        rfl
      rw [← all] at passed
      have alone : s.waiting ++ (Event.wakes now : Event ε χ).ticket?.toList = s.waiting :=
        List.append_nil _
      rw [← alone] at passed
      simp only
      rw [← all, ← alone]
      exact .passes fresh passed (.inr rfl)
  | touches e => exact .stays rfl rfl (List.append_nil _).symm (fun _ => rfl) (fun wakes => absurd rfl wakes)

theorem Stepped.held {s s' : State σ χ ρ} (held : Held s) (stepped : Stepped instant s e s') :
    Held s' := by
  cases stepped with
  | stays holder returned queue claimed settled =>
    constructor
    · rw [holder]
      exact held.bounded
    · intro free
      rw [holder] at free
      rw [queue, held.unclaimed free, claimed free]
      rfl
  | passes fresh passed turned => exact passed.toHeld

/-- Nobody is lost, and nobody overtakes: who has returned and who waits are those who arrived, in the
    order of arrival. -/
theorem Stepped.accounts {s s' : State σ χ ρ} (stepped : Stepped instant s e s') :
    s'.returned.map Returned.ticket ++ s'.waiting =
      (s.returned.map Returned.ticket ++ s.waiting) ++ e.ticket?.toList := by
  cases stepped with
  | stays holder returned queue claimed settled =>
    unfold State.waiting
    rw [holder, returned, queue]
    simp only [List.append_assoc]
  | passes fresh passed turned =>
    rw [passed.returned, List.map_append, List.append_assoc, passed.served, List.append_assoc]

theorem Stepped.returned_subset {s s' : State σ χ ρ} (stepped : Stepped instant s e s') :
    ∀ r ∈ s.returned, r ∈ s'.returned := by
  intro r member
  cases stepped with
  | stays holder returned queue claimed settled =>
    rw [returned]
    exact member
  | passes fresh passed turned =>
    rw [passed.returned]
    exact List.mem_append_left _ member

/-- Whoever waits goes on waiting, or returns at the instant of the event. -/
theorem Stepped.waiting_or_returned {s s' : State σ χ ρ} (stepped : Stepped instant s e s')
    {v : Ticket χ} (waits : v ∈ s.waiting) :
    v ∈ s'.waiting ∨ ∃ r ∈ s'.returned, r.ticket = v ∧ r.time = e.time instant := by
  cases stepped with
  | stays holder returned queue claimed settled =>
    left
    unfold State.waiting at waits ⊢
    rw [holder, queue, ← List.append_assoc]
    exact List.mem_append_left _ waits
  | passes fresh passed turned =>
    have among : v ∈ fresh.map Returned.ticket ++ s'.waiting := by
      rw [passed.served]
      exact List.mem_append_left _ waits
    rcases List.mem_append.mp among with served | waits'
    · obtain ⟨r, member, same⟩ := List.mem_map.mp served
      right
      refine ⟨r, ?_, same, passed.time r member⟩
      rw [passed.returned]
      exact List.mem_append_right _ member
    · exact .inl waits'

theorem Stepped.ahead {s s' : State σ χ ρ} (stepped : Stepped instant s e s')
    (punctual : Punctual instant s e) : ∀ w u, s'.holder = some (w, u) → e.time instant ≤ u := by
  intro w u holding
  cases stepped with
  | stays holder returned queue claimed settled => exact (punctual (w, u) (holder ▸ holding)).1
  | passes fresh passed turned => exact (passed.future w u holding).le

/-- If nobody is outslept, events keep everyone in time. -/
theorem Stepped.onTime {s s' : State σ χ ρ} (stepped : Stepped instant s e s') (held : Held s)
    (onTime : OnTime s) (none : NoneOutslept s) (punctual : Punctual instant s e) : OnTime s' := by
  cases stepped with
  | stays holder returned queue claimed settled =>
    unfold OnTime
    rw [returned]
    exact onTime
  | passes fresh passed turned =>
    intro r member
    rw [passed.returned] at member
    rcases List.mem_append.mp member with before | member
    · exact onTime r before
    · have among : r.ticket ∈ s.waiting ++ e.ticket?.toList := by
        rw [← passed.served]
        exact List.mem_append_left _ (List.mem_map_of_mem member)
      rw [passed.time r member]
      rcases List.mem_append.mp among with waits | arrived
      · cases holding : s.holder with
        | none =>
          rw [held.waiting_nil holding] at waits
          cases waits
        | some holder =>
          obtain ⟨w, u⟩ := holder
          have early := (punctual (w, u) holding).1
          have ahead := held.bounded w u holding
          unfold State.waiting at waits
          rw [holding] at waits
          rcases List.mem_cons.mp waits with same | behind
          · have same : r.ticket = w := same
            rw [same]
            exact (early.trans ahead).trans (le_max_right w.made w.deadline)
          · have inTime := none (w, u) holding _ behind
            omega
      · cases e with
        | arrives now deadline request =>
          have same : r.ticket = { made := now, deadline, request } := List.mem_singleton.mp arrived
          rw [same]
          exact le_max_left now deadline
        | wakes now => cases arrived
        | touches e => cases arrived

/-- `v` has returned late, or still waits too late, or stands behind someone who sleeps too long. -/
inductive Late (v : Ticket χ) (now : Nat) (s : State σ χ ρ) : Prop
  | returned (r : Returned χ ρ) (member : r ∈ s.returned) (same : r.ticket = v)
      (late : v.latest < r.time)
  | waits (waits : v ∈ s.waiting) (late : v.latest < now)
  | outslept (w : Ticket χ) (u : Nat) (holder : s.holder = some (w, u)) (behind : v ∈ s.queue)
      (late : v.latest < u)

theorem Stepped.late {s s' : State σ χ ρ} (stepped : Stepped instant s e s') {v : Ticket χ}
    (late : Late v now s) (le : now ≤ e.time instant) (punctual : Punctual instant s e) :
    Late v (e.time instant) s' := by
  cases late with
  | returned r member same late => exact .returned r (stepped.returned_subset r member) same late
  | waits waits late =>
    rcases stepped.waiting_or_returned waits with waits' | ⟨r, member, same, time⟩
    · exact .waits waits' (late.trans_le le)
    · exact .returned r member same (by omega)
  | outslept w u holder behind late =>
    cases id stepped with
    | stays holder' returned queue claimed settled =>
      refine .outslept w u (holder'.trans holder) ?_ late
      rw [queue]
      exact List.mem_append_left _ behind
    | passes fresh passed turned =>
      have awake : e.time instant = u := by
        rcases turned with free | wakes
        · rw [holder] at free
          cases free
        · exact (punctual (w, u) holder).2 _ wakes
      have waits : v ∈ s.waiting := List.mem_append_right _ behind
      rcases stepped.waiting_or_returned waits with waits' | ⟨r, member, same, time⟩
      · exact .waits waits' (by omega)
      · exact .returned r member same (by omega)

theorem State.free_held (s₀ : σ) : Held (State.free s₀ : State σ χ ρ) := ⟨nofun, fun _ => rfl⟩

variable {es : List (Event ε χ)} {s₀ : σ}

/-- How far the holder's sleep ends before the deadline. -/
def State.left (s : State σ χ ρ) : Nat := (s.holder.map fun h => h.1.deadline - h.2).getD 0

variable (turn touch instant now s) in
/-- Without further arrivals, the run can go on until nobody waits. -/
def RunsOut : Prop :=
  ∃ wakes : List (Event ε χ), (∀ e ∈ wakes, e.ticket? = none) ∧
    Runs.Ordered (Event.time instant) now wakes ∧
    Runs.Along (step turn touch) (Punctual instant) s wakes ∧
    (Runs.exec (step turn touch) s wakes).holder = none

section Turns

variable (bounded : Bounded turn)
include bounded

theorem held_run (held : Held s) (es : List (Event ε χ)) :
    Held (Runs.exec (step turn touch) s es) := by
  have keep : ∀ (s : State σ χ ρ) (e : Event ε χ), Held s → Held (step turn touch s e) :=
    fun s e held => (step_stepped touch (fun _ => 0) bounded s e).held held
  exact Runs.exec_invariant' keep es held

theorem accounts_run (s : State σ χ ρ) (es : List (Event ε χ)) :
    (Runs.exec (step turn touch) s es).returned.map Returned.ticket ++
        (Runs.exec (step turn touch) s es).waiting =
      s.returned.map Returned.ticket ++ s.waiting ++ es.filterMap Event.ticket? := by
  induction es generalizing s with
  | nil => exact (List.append_nil _).symm
  | cons e es ih =>
    have first := (step_stepped touch (fun _ => 0) bounded s e).accounts
    rw [Runs.exec_cons, ih, first, List.append_assoc, List.filterMap_cons]
    cases e.ticket? <;> rfl

/-- The run lemma: while nobody is outslept, everyone returns in time. -/
theorem onTime_run (held : Held s) (onTime : OnTime s)
    (along : Runs.Along (step turn touch) (fun s e => Punctual instant s e ∧ NoneOutslept s) s es) :
    OnTime (Runs.exec (step turn touch) s es) := by
  have keep : ∀ (s : State σ χ ρ) (e : Event ε χ), Held s ∧ OnTime s →
      Punctual instant s e ∧ NoneOutslept s →
      Held (step turn touch s e) ∧ OnTime (step turn touch s e) := by
    intro s e kept fine
    have stepped := step_stepped touch instant bounded s e
    exact ⟨stepped.held kept.1, stepped.onTime kept.1 kept.2 fine.2 fine.1⟩
  exact (Runs.exec_invariant keep ⟨held, onTime⟩ along).2

theorem ahead_run (ahead : ∀ w u, s.holder = some (w, u) → now ≤ u)
    (ordered : Runs.Ordered (Event.time instant) now es)
    (punctual : Runs.Along (step turn touch) (Punctual instant) s es) :
    ∀ w u, (Runs.exec (step turn touch) s es).holder = some (w, u) →
      Runs.clock (Event.time instant) now es ≤ u := by
  have keep : ∀ now (s : State σ χ ρ) (e : Event ε χ),
      (∀ w u, s.holder = some (w, u) → now ≤ u) → now ≤ e.time instant → Punctual instant s e →
      ∀ w u, (step turn touch s e).holder = some (w, u) → e.time instant ≤ u :=
    fun now s e ahead le punctual => (step_stepped touch instant bounded s e).ahead punctual
  exact Runs.timed_invariant keep ahead ordered punctual

theorem late_run {v : Ticket χ} (late : Late v now s)
    (ordered : Runs.Ordered (Event.time instant) now es)
    (punctual : Runs.Along (step turn touch) (Punctual instant) s es) :
    Late v (Runs.clock (Event.time instant) now es) (Runs.exec (step turn touch) s es) := by
  have keep : ∀ now (s : State σ χ ρ) (e : Event ε χ), Late v now s → now ≤ e.time instant →
      Punctual instant s e → Late v (e.time instant) (step turn touch s e) :=
    fun now s e late le punctual =>
      (step_stepped touch instant bounded s e).late late le punctual
  exact Runs.timed_invariant keep late ordered punctual

/-- In a run after which nobody waits any more, everyone has returned in time exactly when nobody was
    ever outslept. -/
theorem onTime_iff (ordered : Runs.Ordered (Event.time instant) now es)
    (punctual : Runs.Along (step turn touch) (Punctual instant) (State.free s₀) es)
    (ended : (Runs.exec (step turn touch) (State.free s₀) es).holder = none) :
    OnTime (Runs.exec (step turn touch) (State.free s₀ : State σ χ ρ) es) ↔
      ∀ seen rest, es = seen ++ rest →
        NoneOutslept (Runs.exec (step turn touch) (State.free s₀ : State σ χ ρ) seen) := by
  constructor
  · intro onTime seen rest split ⟨w, u⟩ holder v behind
    by_contra late
    have start : Late v (Runs.clock (Event.time instant) now seen)
        (Runs.exec (step turn touch) (State.free s₀) seen) :=
      .outslept w u holder behind (Nat.lt_of_not_le late)
    rw [split] at ordered punctual ended onTime
    rw [Runs.exec_append] at ended onTime
    have tail := ((Runs.ordered_append ..).mp ordered).2
    have final := late_run bounded start tail ((Runs.along_append ..).mp punctual).2
    have held : Held (Runs.exec (step turn touch)
        (Runs.exec (step turn touch) (State.free s₀) seen) rest) :=
      held_run bounded (held_run bounded (State.free_held s₀) seen) rest
    cases final with
    | returned r member same late =>
      have inTime := onTime r member
      rw [same] at inTime
      omega
    | waits waits late =>
      rw [held.waiting_nil ended] at waits
      cases waits
    | outslept w u holder behind late =>
      rw [ended] at holder
      cases holder
  · intro none
    have along : Runs.Along (step turn touch) (fun s e => Punctual instant s e ∧ NoneOutslept s)
        (State.free s₀) es := by
      rw [Runs.along_iff_split]
      intro before e after split
      exact ⟨Runs.along_iff_split.mp punctual before e after split, none before (e :: after) split⟩
    exact onTime_run bounded (State.free_held s₀) nofun along

/-- If those who arrive are willing to wait as long as the ones before them, nobody is outslept. -/
theorem noneOutslept_of_arrivals
    (patient : (es.filterMap Event.ticket?).Pairwise fun a b => a.deadline ≤ b.latest)
    {seen rest : List (Event ε χ)} (split : es = seen ++ rest) :
    NoneOutslept (Runs.exec (step turn touch) (State.free s₀ : State σ χ ρ) seen) := by
  intro ⟨w, u⟩ holder v behind
  have held : Held (Runs.exec (step turn touch) (State.free s₀ : State σ χ ρ) seen) :=
    held_run bounded (State.free_held s₀) seen
  have accounts : (Runs.exec (step turn touch) (State.free s₀ : State σ χ ρ) seen).returned.map
      Returned.ticket ++ (Runs.exec (step turn touch) (State.free s₀) seen).waiting = _ :=
    accounts_run bounded (State.free s₀ : State σ χ ρ) seen
  have arrived : (w :: (Runs.exec (step turn touch) (State.free s₀ : State σ χ ρ) seen).queue).Sublist
      (seen.filterMap Event.ticket?) := by
    have all : (State.free s₀ : State σ χ ρ).returned.map Returned.ticket ++
        (State.free s₀ : State σ χ ρ).waiting = [] := rfl
    rw [all, List.nil_append] at accounts
    rw [← accounts]
    unfold State.waiting
    rw [holder]
    exact List.sublist_append_right ..
  rw [split, List.filterMap_append] at patient
  have ordered := (List.pairwise_append.mp patient).1.sublist arrived
  exact (held.bounded w u holder).trans (List.rel_of_pairwise_cons ordered behind)

omit bounded in
theorem RunsOut.wake {w : Ticket χ} {u : Nat} (holding : s.holder = some (w, u)) (ahead : now ≤ u)
    (next : RunsOut turn touch instant u (passOn turn u s.shared s.returned (w :: s.queue))) :
    RunsOut turn touch instant now s := by
  obtain ⟨wakes, silent, ordered, punctual, ended⟩ := next
  have woken : step turn touch s (.wakes u) = passOn turn u s.shared s.returned (w :: s.queue) := by
    simp only [step, holding]
  rw [← woken] at punctual ended
  refine ⟨.wakes u :: wakes, ?_, ⟨ahead, ordered⟩, ⟨?_, punctual⟩, ended⟩
  · intro e member
    cases member with
    | head => rfl
    | tail _ member => exact silent e member
  · intro h same
    rw [holding] at same
    cases same
    refine ⟨Nat.le_refl _, ?_⟩
    intro now same
    cases same
    rfl

/-- Wake-ups alone bring everyone to their end: with each the ones who wait become fewer, or the
    holder comes closer to the deadline. -/
theorem runsOut (held : Held s) (ahead : ∀ w u, s.holder = some (w, u) → now ≤ u) :
    RunsOut turn touch instant now s := by
  induction all : s.waiting.length using Nat.strongRecOn generalizing s now with
  | _ n fewer =>
    induction near : s.left using Nat.strongRecOn generalizing s now with
    | _ m closer =>
      cases holding : s.holder with
      | none => exact ⟨[], nofun, trivial, trivial, holding⟩
      | some holder =>
        obtain ⟨w, u⟩ := holder
        obtain ⟨fresh, passed⟩ := passOn_passed bounded u s.shared s.returned (w :: s.queue)
        have before : s.waiting = w :: s.queue := by
          unfold State.waiting
          rw [holding]
          rfl
        refine RunsOut.wake holding (ahead w u holding) ?_
        generalize passOn turn u s.shared s.returned (w :: s.queue) = t at passed ⊢
        have served := passed.served
        have ahead' : ∀ w u', t.holder = some (w, u') → u ≤ u' :=
          fun w u' holder => (passed.future w u' holder).le
        cases fresh with
        | cons r fresh =>
          have less : t.waiting.length < n := by
            have lengths := congrArg List.length served
            rw [← before, all] at lengths
            simp only [List.map_cons, List.length_append, List.length_cons] at lengths
            omega
          exact fewer _ less passed.toHeld ahead' rfl
        | nil =>
          have same : t.waiting = w :: s.queue := served
          cases holding' : t.holder with
          | none =>
            rw [passed.toHeld.waiting_nil holding'] at same
            cases same
          | some holder' =>
            obtain ⟨w', u'⟩ := holder'
            have one : w' = w := by
              unfold State.waiting at same
              rw [holding'] at same
              exact (List.cons_eq_cons.mp same).1
            have future := passed.future w' u' holding'
            have inTime := passed.bounded w' u' holding'
            have less : t.left < m := by
              rw [← near]
              unfold State.left
              rw [holding, holding', one]
              rw [one] at inTime
              show w.deadline - u' < w.deadline - u
              omega
            exact closer _ less passed.toHeld ahead' (by rw [same, ← before, all]) rfl

end Turns

end Run

end Turnstile
