import BraveRotator.Lib.Descent
import BraveRotator.Pool.Deadline
import BraveRotator.Server.Line
import Mathlib.Algebra.GroupWithZero.Nat

namespace BraveRotator

namespace Phase

/-- How many moves are left with so many attempts to go, the sleeps in `acquire` apart. -/
def rank (left : Nat) : Phase → Nat
  | .acquiring => 3 * left + 1
  | .sending _ => 3 * left + 3
  | .building .. => 1
  | .answered _ => 0

/-- The event is what a call in this phase waits for. -/
def expects : Phase → ProxyEvent → Bool
  | .acquiring, .tries _ => true
  | .sending _, .replies .. => true
  | .building .., .builds _ => true
  | _, _ => false

end Phase

namespace Session

def rank (job : Job) (s : Session) : Nat := s.phase.rank (job.maxAttempts - s.attempts)

/-- The retry loop only goes on with attempts left. -/
def Roomy (job : Job) (s : Session) : Prop := s.phase = .acquiring → s.attempts < job.maxAttempts

variable {job : Job} {s : Session} {now : Instant}

theorem step_unexpected {e : ProxyEvent} (own : ∀ c, e ≠ .others c)
    (unexpected : s.phase.expects e = false) : step job s e = s := by
  cases e with
  | others c => exact absurd rfl (own c)
  | tries now =>
    cases phase : s.phase with
    | acquiring =>
      rw [phase] at unexpected
      cases unexpected
    | _ => simp only [step, phase]
  | replies now x =>
    cases phase : s.phase with
    | sending lease =>
      rw [phase] at unexpected
      cases unexpected
    | _ => simp only [step, phase]
  | builds now =>
    cases phase : s.phase with
    | building up label =>
      rw [phase] at unexpected
      cases unexpected
    | _ => simp only [step, phase]

theorem rank_next (job : Job) (s : Session) :
    (s.next job).rank job ≤ 3 * (job.maxAttempts - s.attempts) + 1 := by
  rcases s.next_cases job with ⟨-, same⟩ | ⟨-, up, label, -, same⟩ | ⟨-, -, detail, same⟩
  · rw [same]
    exact le_rfl
  · rw [same]
    exact Nat.le_add_left ..
  · rw [same]
    exact Nat.zero_le _

theorem roomy_next (job : Job) (s : Session) : (s.next job).Roomy job := by
  intro acquiring
  rcases s.next_cases job with ⟨room, same⟩ | ⟨-, up, label, -, same⟩ | ⟨-, -, detail, same⟩
  · rw [same]
    exact room
  · rw [same] at acquiring
    cases acquiring
  · rw [same] at acquiring
    cases acquiring

theorem rank_of_replies {lease : Lease} (sending : s.phase = .sending lease) (x : Exchange) :
    (step job s (.replies now x)).rank job < s.rank job := by
  have whole : s.rank job = 3 * (job.maxAttempts - s.attempts) + 3 := by
    unfold rank
    rw [sending]
    rfl
  rw [step_replies sending, whole]
  have received := receive_received job s now lease (job.upstream.send job.forward lease.token x)
  generalize s.receive job now lease _ = s' at received
  generalize job.upstream.send job.forward lease.token x = result at received
  cases received with
  | settles up p settled =>
    show 1 < _
    omega
  | retries up p retry =>
    apply lt_of_le_of_lt (rank_next job _)
    exact Nat.add_lt_add_left (by decide) _
  | fails e p =>
    apply lt_of_le_of_lt (rank_next job _)
    exact Nat.add_lt_add_left (by decide) _

theorem rank_of_builds {up : UpstreamResponse} {label : String}
    (building : s.phase = .building up label) :
    (step job s (.builds now)).rank job < s.rank job := by
  unfold rank step
  rw [building]
  exact Nat.one_pos

/-- The turn that ends `acquire` uses up an attempt, or is the last move. -/
theorem rank_of_ends {result : Except AcquireError Lease} (acquiring : s.phase = .acquiring)
    (roomy : s.Roomy job)
    (ends : (s.pool.acquireTurn now (s.asking job now)).2 = .ends result) :
    (step job s (.tries now)).rank job < s.rank job := by
  have room := roomy acquiring
  have whole : s.rank job = 3 * (job.maxAttempts - s.attempts) + 1 := by
    unfold rank
    rw [acquiring]
    rfl
  rw [step_tries acquiring, whole]
  unfold attempt
  unfold asking at ends
  rcases turned : s.pool.acquireTurn now { made := now, deadline := job.deadline, request := s.tried } with
    ⟨p, turn⟩
  rw [turned] at ends
  cases ends
  cases result with
  | ok lease =>
    show 3 * (job.maxAttempts - (s.attempts + 1)) + 3 < _
    omega
  | error e => exact Nat.succ_pos _

theorem Roomy.step (roomy : s.Roomy job) (e : ProxyEvent) : (step job s e).Roomy job := by
  have turned := step_turned job s e
  generalize Session.step job s e = s' at turned
  cases turned with
  | idles _ p unleased unsent => exact roomy
  | leases now p lease acquiring granted =>
    intro later
    cases later
  | fails now p e acquiring unleased =>
    intro later
    cases later
  | builds now up label building =>
    intro later
    cases later
  | receives now x lease sending =>
    have received := receive_received job s now lease (job.upstream.send job.forward lease.token x)
    generalize s.receive job now lease _ = s' at received
    generalize job.upstream.send job.forward lease.token x = result at received
    cases received with
    | settles up p settled =>
      intro later
      cases later
    | retries up p retry => exact roomy_next job _
    | fails e p => exact roomy_next job _

end Session

/-- A call that is there goes on. -/
def ServerEvent.isMove : ServerEvent → Bool
  | .tries _ | .replies .. | .builds .. => true
  | .arrives .. | .drops .. | .reports _ => false

def Client.rank (c : Client) : Nat := c.phase.rank (c.job.maxAttempts - c.attempts)

theorem sum_set_add {α : Type*} (f : α → Nat) {l : List α} {i : Nat} {a : α} (here : l[i]? = some a)
    (b : α) : ((l.set i b).map f).sum + f a = (l.map f).sum + f b := by
  induction l generalizing i with
  | nil => cases here
  | cons x l ih =>
    cases i with
    | zero =>
      cases here
      simp only [List.set_cons_zero, List.map_cons, List.sum_cons]
      omega
    | succ i =>
      have rest := ih here
      simp only [List.set_cons_succ, List.map_cons, List.sum_cons]
      omega

namespace Server

variable (s : Server)

/-- The moves that are left to the first `n` calls. -/
def work (n : Nat) : Nat := ((s.clients.take n).map fun o => o.elim 0 Client.rank).sum

/-- How long the one of the first `n` calls that holds the turnstile can still put its next turn off,
    until `latest` at most. -/
def respite (n : Nat) (latest : Instant) : Nat :=
  if s.line.head?.any (· < n) then latest + 1 - s.asleep else latest + 1

/-- Each move may start a sleep over. -/
def potential (n : Nat) (latest : Instant) : Nat := s.work n * (latest + 2) + s.respite n latest

/-- The call that an event takes further: it is what the call waits for. -/
def due? (e : ServerEvent) : Option Nat :=
  ((s.moves? e).filter fun move => move.2.1.phase.expects move.2.2).map Prod.fst

/-- The calls that move on in a run, once for each move. -/
def moved (es : List ServerEvent) : List Nat := Runs.collect step due? s es

/-- One of the first `n` calls moves on. -/
def old? (n : Nat) (e : ServerEvent) : Option Nat := (s.due? e).filter (· < n)

/-- The first `n` calls have come in, and wait until `latest` at most. -/
structure Ready (n : Nat) (latest : Instant) : Prop where
  lined : s.Lined
  roomy : ∀ i c, s.client? i = some c → (c.session s.pool).Roomy c.job
  deadlines : ∀ i c, i < n → s.client? i = some c → c.job.deadline ≤ latest
  inside : n ≤ s.clients.length

section Fall

variable {s} {n : Nat} {latest : Instant} {e : ServerEvent} {now : Instant} {i : Nat} {c : Client}

theorem work_set {before : Option Client} (there : s.clients[i]? = some before) (o : Option Client)
    (old : i < n) :
    (((s.clients.set i o).take n).map fun o => o.elim 0 Client.rank).sum +
      before.elim 0 Client.rank = s.work n + o.elim 0 Client.rank := by
  have found : (s.clients.take n)[i]? = some before := (List.getElem?_take_of_lt old).trans there
  rw [List.take_set]
  exact sum_set_add (fun o : Option Client => o.elim 0 Client.rank) found o

theorem work_set_new (o : Option Client) (new : n ≤ i) :
    (((s.clients.set i o).take n).map fun o => o.elim 0 Client.rank).sum = s.work n := by
  rw [List.take_set_of_le new]
  rfl

theorem work_follow (here : s.client? i = some c) (pe : ProxyEvent) (old : i < n) :
    (s.follow i c pe).work n + c.rank =
      s.work n + (Session.step c.job (c.session s.pool) pe).rank c.job :=
  work_set (Option.join_eq_some_iff.mp here) _ old

theorem respite_le (s : Server) (n : Nat) (latest : Instant) : s.respite n latest ≤ latest + 1 := by
  unfold respite
  split
  · exact Nat.sub_le ..
  · exact le_rfl

theorem respite_of_new (new : ∀ i, s.line.head? = some i → n ≤ i) :
    s.respite n latest = latest + 1 := by
  unfold respite
  cases first : s.line.head? with
  | none => rfl
  | some i => rw [Option.any_some, decide_eq_false (Nat.not_lt.mpr (new i first)), if_neg nofun]

theorem respite_congr {s' : Server} (head : s'.line.head? = s.line.head?)
    (asleep : s'.asleep = s.asleep) : s'.respite n latest = s.respite n latest := by
  unfold respite
  rw [head, asleep]

/-- A new call at the end of the line leaves its head alone, if it has one. -/
theorem respite_joins {s' : Server} (line : s'.line = s.line ++ [i]) (asleep : s'.asleep = s.asleep) :
    s'.respite n latest ≤ s.respite n latest := by
  cases empty : s.line with
  | nil =>
    have none : ∀ j, s.line.head? = some j → n ≤ j := by
      intro j first
      rw [empty] at first
      cases first
    rw [respite_of_new none]
    exact respite_le ..
  | cons j rest =>
    have head : s'.line.head? = s.line.head? := by rw [line, empty]; rfl
    exact (respite_congr head asleep).le

/-- A move that lowers the rank of its call pays for all sleeping. -/
theorem potential_of_work {s' : Server} (less : s'.work n < s.work n) :
    s'.potential n latest + 1 ≤ s.potential n latest := by
  have paid : (s'.work n + 1) * (latest + 2) ≤ s.work n * (latest + 2) := Nat.mul_le_mul_right _ less
  have most := respite_le s' n latest
  rw [Nat.add_mul] at paid
  unfold potential
  omega

theorem potential_le {s' : Server} (work : s'.work n ≤ s.work n)
    (respite : s'.respite n latest ≤ s.respite n latest) :
    s'.potential n latest ≤ s.potential n latest :=
  Nat.add_le_add (Nat.mul_le_mul_right _ work) respite

theorem old?_length_le (n : Nat) (e : ServerEvent) : (s.old? n e).toList.length ≤ 1 :=
  Option.length_toList_le

theorem old?_of_idle (idle : s.moves? e = none) : s.old? n e = none := by
  rw [old?, due?, idle]
  rfl

theorem old?_of_new {pe : ProxyEvent} (moves : s.moves? e = some (i, c, pe)) (new : n ≤ i) :
    s.old? n e = none := by
  rw [old?, due?, moves, Option.filter_some]
  split
  · exact if_neg (by simpa using new)
  · rfl

theorem tries_falls (ready : s.Ready n latest) (holds : s.holder? now = some (i, c)) (old : i < n) :
    (s.attempt now i c).potential n latest + 1 ≤ s.potential n latest := by
  have here := holder?_client holds
  obtain ⟨awake, rest, line⟩ := holder?_line holds
  have waits : c.waits = true := by
    rw [← waitsAt_of_client here]
    exact ready.lined.head_waits line
  have acquiring : (c.session s.pool).phase = .acquiring := c.waits_iff.mp waits
  have roomy := ready.roomy i c here
  have deadline := ready.deadlines i c old here
  have follow := work_follow here (.tries now) old
  have head : s.line.head?.any (· < n) = true := by
    rw [line]
    exact decide_eq_true old
  unfold attempt
  dsimp only
  split
  · rename_i u sleeps
    have slept := Session.step_of_sleeps acquiring sleeps
    have rank : (Session.step c.job (c.session s.pool) (.tries now)).rank c.job = c.rank := by
      rw [slept]
      rfl
    have work : (s.follow i c (.tries now)).work n = s.work n := by omega
    obtain ⟨future, before⟩ := Pool.acquireTurn_bounded s.pool now
      ((c.session s.pool).asking c.job now) _ u (Prod.ext rfl sleeps)
    have inTime : u ≤ latest := before.trans deadline
    have later : s.asleep < u := Nat.lt_of_le_of_lt awake future
    have less : latest + 1 - u < latest + 1 - s.asleep :=
      Nat.sub_lt_sub_left (Nat.lt_succ_of_lt (Nat.lt_of_lt_of_le later inTime)) later
    have respite : s.respite n latest = latest + 1 - s.asleep := if_pos head
    have respite' : ({ s.follow i c (.tries now) with asleep := u } : Server).respite n latest =
        latest + 1 - u := if_pos head
    show (s.follow i c (.tries now)).work n * _ + _ + 1 ≤ _
    rw [work, respite', potential, respite]
    exact Nat.add_lt_add_left less _
  · rename_i result ends
    have rank := Session.rank_of_ends acquiring roomy ends
    apply potential_of_work
    show (s.follow i c (.tries now)).work n < _
    have same : (c.session s.pool).rank c.job = c.rank := rfl
    omega

/-- The turns of the others take nothing off it, and add nothing. -/
theorem tries_kept (holds : s.holder? now = some (i, c)) (new : n ≤ i) :
    (s.attempt now i c).potential n latest ≤ s.potential n latest := by
  obtain ⟨-, rest, line⟩ := holder?_line holds
  have respite : s.respite n latest = latest + 1 := by
    apply respite_of_new
    intro j first
    rw [line] at first
    cases first
    exact new
  have work : (s.attempt now i c).work n = s.work n := by
    unfold attempt
    dsimp only
    split
    · exact work_set_new _ new
    · exact work_set_new _ new
  exact potential_le work.le (respite ▸ respite_le ..)

theorem replies_falls (here : s.client? i = some c) (sending : c.sending?.isSome = true)
    (x : Exchange) (old : i < n) :
    (s.answer now i c x).potential n latest + 1 ≤ s.potential n latest := by
  obtain ⟨lease, sends⟩ := Option.isSome_iff_exists.mp sending
  have phase : (c.session s.pool).phase = .sending lease := c.sending?_eq_some.mp sends
  have rank : (Session.step c.job (c.session s.pool) (.replies now x)).rank c.job < c.rank :=
    Session.rank_of_replies phase x
  have follow := work_follow here (.replies now x) old
  have less : (s.follow i c (.replies now x)).work n < s.work n := by omega
  unfold answer
  dsimp only
  split
  · exact potential_of_work less
  · exact potential_of_work less

theorem replies_kept (x : Exchange) (new : n ≤ i) :
    (s.answer now i c x).potential n latest ≤ s.potential n latest := by
  have work : (s.follow i c (.replies now x)).work n = s.work n := work_set_new _ new
  unfold answer
  dsimp only
  split
  · exact potential_le work.le (respite_joins rfl rfl)
  · exact potential_le work.le le_rfl

theorem builds_falls (here : s.client? i = some c) (old : i < n) :
    (s.follow i c (.builds now)).potential n latest + (s.old? n (.builds now i)).toList.length ≤
      s.potential n latest := by
  have moves : s.moves? (.builds now i) = some (i, c, .builds now) := by
    rw [moves?_builds, here, Option.map_some]
  have follow := work_follow here (.builds now) old
  have most := old?_length_le (s := s) n (.builds now i)
  cases expected : c.phase.expects (.builds now) with
  | true =>
    cases phase : c.phase with
    | building up label =>
      have rank : (Session.step c.job (c.session s.pool) (.builds now)).rank c.job < c.rank :=
        Session.rank_of_builds phase
      have falls : (s.follow i c (.builds now)).potential n latest + 1 ≤ s.potential n latest :=
        potential_of_work (by omega)
      omega
    | _ =>
      rw [phase] at expected
      cases expected
  | false =>
    have quiet : s.old? n (.builds now i) = none := by
      rw [old?, due?, moves, Option.filter_some, if_neg (by rw [expected]; exact Bool.false_ne_true)]
      rfl
    have idle : Session.step c.job (c.session s.pool) (.builds now) = c.session s.pool :=
      Session.step_unexpected (fun _ same => by cases same) expected
    rw [idle] at follow
    have work : (s.follow i c (.builds now)).work n = s.work n := Nat.add_right_cancel follow
    rw [quiet]
    exact potential_le work.le le_rfl

theorem drop_clients (s : Server) (i : Nat) : (s.drop i).clients = s.clients.set i none := by
  unfold drop
  dsimp only
  split <;> rfl

theorem drop_work (s : Server) (n i : Nat) : (s.drop i).work n ≤ s.work n := by
  rw [work, drop_clients]
  by_cases old : i < n
  · cases here : s.clients[i]? with
    | none =>
      rw [List.set_eq_of_length_le (List.getElem?_eq_none_iff.mp here)]
      exact le_rfl
    | some before =>
      have set := work_set here none old
      have gone : (none : Option Client).elim 0 Client.rank = 0 := rfl
      omega
  · exact (work_set_new none (Nat.not_lt.mp old)).le

theorem drops_falls (lined : s.Lined) (i : Nat) :
    (s.drop i).potential n latest ≤ s.potential n latest := by
  by_cases first : s.line.head? = some i
  · by_cases old : i < n
    · have waits := (lined.waits i).mp (List.mem_of_mem_head? first)
      obtain ⟨c, here, waiting⟩ := (Option.any_eq_true ..).mp waits
      rw [Client.waits_iff] at waiting
      have rank : 1 ≤ c.rank := by
        rw [Client.rank, waiting]
        exact Nat.succ_pos _
      have set := work_set (Option.join_eq_some_iff.mp here) none old
      have less : (s.drop i).work n < s.work n := by
        rw [work, drop_clients]
        simp only [Option.elim_none, Option.elim_some] at set ⊢
        omega
      exact Nat.le_of_succ_le (potential_of_work less)
    · have respite : s.respite n latest = latest + 1 := by
        apply respite_of_new
        intro j second
        rw [first] at second
        cases second
        exact Nat.not_lt.mp old
      exact potential_le (drop_work s n i) (respite ▸ respite_le ..)
  · have stays : (s.drop i).line.head? = s.line.head? ∧ (s.drop i).asleep = s.asleep := by
      rw [drop, if_neg first]
      refine ⟨?_, rfl⟩
      cases line : s.line with
      | nil => rfl
      | cons j rest =>
        have other : j ≠ i := by
          rintro rfl
          exact first (by rw [line]; rfl)
        rw [List.filter_cons, if_pos (decide_eq_true other)]
        rfl
    exact potential_le (drop_work s n i) (respite_congr stays.1 stays.2).le

theorem arrives_kept (inside : n ≤ s.clients.length) (now : Instant) (req : ClientRequest) :
    (s.arrive now req).potential n latest ≤ s.potential n latest := by
  unfold arrive
  split
  · unfold enter
    split
    · exact le_rfl
    · refine potential_le (le_of_eq ?_) (respite_joins rfl rfl)
      unfold work
      rw [List.take_append_of_le_length inside]
  · exact le_rfl
  · exact le_rfl
  · exact le_rfl

/-- No event adds to what is left to the first `n` calls, and each of their moves takes off it. -/
theorem step_falls (ready : s.Ready n latest) (e : ServerEvent) :
    (s.step e).potential n latest + (s.old? n e).toList.length ≤ s.potential n latest := by
  have most := old?_length_le (s := s) n e
  cases e with
  | arrives now req => exact arrives_kept ready.inside now req
  | tries now =>
    simp only [step]
    cases holds : s.holder? now with
    | none =>
      rw [old?_of_idle (by rw [moves?_tries, holds, Option.map_none])]
      exact le_rfl
    | some holder =>
      obtain ⟨i, c⟩ := holder
      by_cases old : i < n
      · have falls := tries_falls ready holds old
        dsimp only
        omega
      · have moves : s.moves? (.tries now) = some (i, c, .tries now) := by
          rw [moves?_tries, holds, Option.map_some]
        rw [old?_of_new moves (Nat.not_lt.mp old)]
        exact tries_kept holds (Nat.not_lt.mp old)
  | replies now i x =>
    simp only [step]
    cases found : (s.client? i).filter (·.sending?.isSome) with
    | none =>
      rw [old?_of_idle (by rw [moves?_replies, found, Option.map_none])]
      exact le_rfl
    | some c =>
      obtain ⟨here, sending⟩ := Option.filter_eq_some_iff.mp found
      by_cases old : i < n
      · have falls : (s.answer now i c x).potential n latest + 1 ≤ s.potential n latest :=
          replies_falls here sending x old
        dsimp only
        omega
      · have moves : s.moves? (.replies now i x) = some (i, c, .replies now x) := by
          rw [moves?_replies, found, Option.map_some]
        rw [old?_of_new moves (Nat.not_lt.mp old)]
        exact replies_kept x (Nat.not_lt.mp old)
  | builds now i =>
    simp only [step]
    cases here : s.client? i with
    | none =>
      rw [old?_of_idle (by rw [moves?_builds, here, Option.map_none])]
      exact le_rfl
    | some c =>
      by_cases old : i < n
      · exact builds_falls here old
      · have moves : s.moves? (.builds now i) = some (i, c, .builds now) := by
          rw [moves?_builds, here, Option.map_some]
        rw [old?_of_new moves (Nat.not_lt.mp old)]
        exact potential_le (work_set_new _ (Nat.not_lt.mp old)).le le_rfl
  | drops now i => exact drops_falls ready.lined i
  | reports now => exact le_rfl

end Fall

section Ready

variable {s} {n : Nat} {latest : Instant} {e : ServerEvent} {i : Nat} {c : Client}

theorem roomy_step (roomy : ∀ i c, s.client? i = some c → (c.session s.pool).Roomy c.job)
    (e : ServerEvent) :
    ∀ i c, (s.step e).client? i = some c → (c.session (s.step e).pool).Roomy c.job := by
  intro j c' there
  rcases client_cases there with here | ⟨c, pe, -, here, rfl⟩ | ⟨now, req, r, -, -, rfl⟩
  · exact roomy j c' here
  · exact (roomy j c here).step pe
  · intro acquiring
    show 0 < max 2 (min _ 5)
    omega

theorem Ready.step (ready : s.Ready n latest) (e : ServerEvent) : (s.step e).Ready n latest where
  lined := ready.lined.relined (step_relined ready.lined e)
  roomy := roomy_step ready.roomy e
  inside := ready.inside.trans (s.length_le_step e)
  deadlines := by
    intro j c' old there
    rcases client_cases there with here | ⟨c, pe, -, here, rfl⟩ | ⟨now, req, r, -, new, -⟩
    · exact ready.deadlines j c' old here
    · exact ready.deadlines j c old here
    · exact absurd (ready.inside.trans_eq new.symm) (Nat.not_le.mpr old)

theorem descends (n : Nat) (latest : Instant) (P : ServerEvent → Prop) :
    Descent.Descends step (old? · n) (Ready · n latest) P (potential · n latest) where
  keep _ e ready _ := ready.step e
  falls _ e ready _ := step_falls ready e

/-- A move takes no call away. -/
theorem stays (move : e.isMove = true) (there : (s.client? i).isSome = true) :
    ((s.step e).client? i).isSome = true := by
  have stepped := s.step_stepped e
  generalize s.step e = s' at stepped
  cases stepped with
  | moved j c pe line asleep moves here =>
    have found := client?_follow here pe i
    show ((s.follow j c pe).client? i).isSome = true
    rw [found]
    by_cases mine : i = j
    · rw [if_pos mine]
      rfl
    · rw [if_neg mine]
      exact there
  | entered now req r line same routed accepted =>
    rw [same] at move
    cases move
  | dropped now j line asleep same =>
    rw [same] at move
    cases move
  | looked p pool idle quiet undropped => exact there

end Ready

section New

variable (turnstile : Mutex) (host : Host) (uriError : String → Option String) (cfg : Config)
  (started : Instant)

end New

end Server

end BraveRotator
