import Mathlib.Data.List.Nodup
import BraveRotator.Key.Quota
import BraveRotator.Traffic.Cap
import BraveRotator.Traffic.Probe

namespace BraveRotator

def Health.exhaustedUntil? : Health → Option Instant
  | .exhausted u => some u
  | _ => none

theorem KeyState.Turn.exhausted {window : Duration} {now u : Instant} {k k' : KeyState}
    {outcome : Option Outcome} {leased : Bool} (turn : k.Turn window now outcome leased k')
    (fresh : k.health.exhaustedUntil? = none) (exhausted : k'.health.exhaustedUntil? = some u) :
    now ≤ u := by
  have refreshed : (k.refresh now).health.exhaustedUntil? ≠ some u := by
    rw [refresh_health]
    split
    · simp [Health.exhaustedUntil?]
    · simp [fresh]
  cases turn with
  | digested o =>
    rcases (k.digest_health now o).cases with ⟨-, health⟩ | ⟨_, _, -, health⟩ | ⟨_, -, health⟩
    · rw [health, fresh] at exhausted
      cases exhausted
    · rw [health] at exhausted
      cases exhausted
    · rw [health] at exhausted
      cases exhausted
      exact Nat.le_add_right _ _
  | granted free =>
    have health : (((k.refresh now).availability now window).1.grant now).health =
        (k.refresh now).health := availability_health ..
    rw [health] at exhausted
    exact absurd exhausted refreshed
  | tidied _ tidied =>
    rcases tidied with rfl | rfl
    · exact absurd exhausted refreshed
    · rw [availability_health] at exhausted
      exact absurd exhausted refreshed
  | untouched =>
    rw [fresh] at exhausted
    cases exhausted

theorem KeyState.exhausted_of_reached {now : Instant} {k : KeyState} {o : Outcome} {c : Nat}
    (cap : k.monthlyCapOverride = some c) (success : o.isSuccess = true) (reached : c ≤ k.stats.ok + 1) :
    ∃ u, (k.digest now o).1.health.exhaustedUntil? = some u := by
  cases o with
  | transport err => cases success
  | response status rl bodySnippet =>
    have last : k.monthlyCapOverride.any (· ≤ k.stats.ok + 1) = true := by
      rw [cap]
      exact decide_eq_true reached
    have exhausts : k.Exhausts (.response status rl bodySnippet) :=
      Or.inl ⟨of_decide_eq_true success, Or.inr last⟩
    obtain ⟨length, parks⟩ := KeyState.exhausts_iff.mp exhausts
    have parked := k.digest_health now (.response status rl bodySnippet)
    rw [parks] at parked
    exact ⟨now + length, congrArg Health.exhaustedUntil? parked⟩

/-- The success that reaches the cap parks the key, so the others stay below it. -/
theorem KeyState.Turn.below_cap {window : Duration} {now : Instant} {k k' : KeyState}
    {outcome : Option Outcome} {leased : Bool} {c : Nat} (turn : k.Turn window now outcome leased k')
    (cap : k.monthlyCapOverride = some c) (low : k.stats.ok < c)
    (unparked : k'.health.exhaustedUntil? = none) : k'.stats.ok < c := by
  have count := turn.ok
  cases outcome with
  | none =>
    rw [count]
    exact low
  | some o =>
    rw [count, Option.filter_some]
    by_cases success : o.isSuccess = true
    · rw [if_pos success]
      cases turn with
      | digested o =>
        refine Nat.lt_of_not_le fun reached => ?_
        obtain ⟨u, parked⟩ : ∃ u, (k.digest now o).1.health.exhaustedUntil? = some u :=
          k.exhausted_of_reached cap success reached
        rw [unparked] at parked
        cases parked
    · rw [if_neg success]
      exact low

namespace Traffic

section Flights

variable {i : Nat}

theorem count_filter_lt {α : Type*} {p q : α → Bool} {l : List α} {a : α} (member : a ∈ l)
    (counted : p a = true) (dropped : q a = false) : (l.filter q).countP p < l.countP p := by
  rw [List.countP_eq_length_filter, List.countP_eq_length_filter, List.filter_comm]
  refine List.length_filter_lt_length_iff_exists.mpr ⟨a, List.mem_filter.mpr ⟨member, counted⟩, ?_⟩
  simp [dropped]

theorem flight_eq_some {t : Traffic} {id : Nat} {f : Flight} (found : t.flight id = some f) :
    f ∈ t.flights ∧ f.id = id :=
  ⟨List.mem_of_find?_eq_some found, by simpa using List.find?_some found⟩

theorem inFlight_step (t : Traffic) (e : Event) :
    (t.step e).inFlight i + (recorded i t e).toList.length ≤
      t.inFlight i + if t.leased e = some i then 1 else 0 := by
  cases e with
  | acquire now exclude =>
    have quiet : recorded i t (.acquire now exclude) = none := rfl
    rw [quiet, leased_acquire, Pool.leased_tryAcquire]
    simp only [step]
    cases (t.pool.tryAcquire now exclude).2 with
    | error next => simp [inFlight]
    | ok lease =>
      simp only [inFlight, List.countP_append, List.countP_singleton, Except.toOption, Option.map_some,
        Option.some.injEq, decide_eq_true_eq, Option.toList_none, List.length_nil, Nat.add_zero]
      exact Nat.le_refl _
  | answer now id o =>
    rw [leased_answer, if_neg (by simp)]
    cases found : t.flight id with
    | none => simp [step, recorded, call, found]
    | some f =>
      obtain ⟨member, same⟩ := flight_eq_some found
      simp only [step, recorded, call, found, Option.map_some, Option.bind_some, Call.recorded, inFlight]
      by_cases mine : f.lease.idx = i
      · have lt := count_filter_lt (p := fun f : Flight => decide (f.lease.idx = i))
          (q := fun g : Flight => decide (g.id ≠ id)) member (decide_eq_true mine) (by simp [same])
        rw [if_pos mine]
        exact Nat.succ_le_of_lt lt
      · rw [if_neg mine]
        have sublist := (List.filter_sublist (p := fun g : Flight => decide (g.id ≠ id)) (l := t.flights))
        simpa using sublist.countP_le
  | observe now => simp [step, recorded, call, Call.recorded, inFlight]

theorem inFlight_leased {t : Traffic} {e : Event} (leased : t.leased e = some i) :
    (t.step e).inFlight i = t.inFlight i + 1 ∧ recorded i t e = none := by
  cases e with
  | acquire now exclude =>
    refine ⟨?_, rfl⟩
    rw [leased_acquire, Pool.leased_tryAcquire] at leased
    simp only [step]
    cases result : (t.pool.tryAcquire now exclude).2 with
    | error next => simp [result, Except.toOption] at leased
    | ok lease =>
      have mine : lease.idx = i := by simpa [result, Except.toOption] using leased
      simp [inFlight, mine]
  | answer now id o => simp at leased
  | observe now => simp at leased

structure Numbered (t : Traffic) : Prop where
  nodup : (t.flights.map Flight.id).Nodup
  fresh : ∀ f ∈ t.flights, f.id < t.issued

theorem Numbered.step {t : Traffic} (numbered : t.Numbered) (e : Event) : (t.step e).Numbered := by
  cases e with
  | acquire now exclude =>
    simp only [Traffic.step]
    cases (t.pool.tryAcquire now exclude).2 with
    | error next => exact ⟨numbered.nodup, numbered.fresh⟩
    | ok lease =>
      refine ⟨?_, ?_⟩
      · simp only [List.map_append, List.map_cons, List.map_nil]
        rw [List.nodup_append]
        refine ⟨numbered.nodup, by simp, ?_⟩
        intro a member b last same
        obtain ⟨f, inside, rfl⟩ := List.mem_map.mp member
        have lt := numbered.fresh f inside
        rw [List.mem_singleton.mp last] at same
        omega
      · intro f member
        rcases List.mem_append.mp member with member | member
        · exact Nat.lt_succ_of_lt (numbered.fresh f member)
        · rw [List.mem_singleton.mp member]
          exact Nat.lt_succ_self _
  | answer now id o =>
    simp only [Traffic.step]
    cases t.flight id with
    | none => exact numbered
    | some f =>
      exact ⟨numbered.nodup.sublist (List.filter_sublist.map _),
        fun g member => numbered.fresh g (List.mem_of_mem_filter member)⟩
  | observe now => exact ⟨numbered.nodup, numbered.fresh⟩

theorem Numbered.flight {t : Traffic} (numbered : t.Numbered) {f : Flight} (member : f ∈ t.flights) :
    t.flight f.id = some f := by
  cases found : t.flight f.id with
  | none =>
    have absent := List.find?_eq_none.mp found f member
    simp at absent
  | some g =>
    obtain ⟨inside, same⟩ := flight_eq_some found
    rw [List.inj_on_of_nodup_map numbered.nodup inside member same]

def allSucceed (i : Nat) (now : Instant) (t : Traffic) : List Event :=
  (t.flights.filter (·.lease.idx = i)).map fun f => .answer now f.id (.response 200 none none)

theorem successes_answers {t : Traffic} (numbered : t.Numbered) (now : Instant) {fs : List Flight}
    (mine : ∀ f ∈ fs, f.lease.idx = i) (out : fs ⊆ t.flights) (nodup : (fs.map Flight.id).Nodup) :
    successes i t (fs.map fun f => .answer now f.id (.response 200 none none)) = fs.length := by
  induction fs generalizing t with
  | nil => rfl
  | cons f fs ih =>
    have found := numbered.flight (out List.mem_cons_self)
    rw [List.map_cons, List.nodup_cons] at nodup
    have success : succeeds i t (.answer now f.id (.response 200 none none)) =
        some (.response 200 none none) := by
      rw [succeeds_eq_some, recorded, call, found]
      exact ⟨if_pos (mine f List.mem_cons_self), rfl⟩
    have rest : fs ⊆ (t.step (.answer now f.id (.response 200 none none))).flights := by
      intro g member
      simp only [step, found]
      refine List.mem_filter.mpr ⟨out (List.mem_cons_of_mem _ member), decide_eq_true ?_⟩
      intro same
      exact nodup.1 (same ▸ List.mem_map_of_mem member)
    rw [List.map_cons, successes_cons, success,
      ih (numbered.step _) (fun g member => mine g (List.mem_cons_of_mem _ member)) rest nodup.2]
    simp [Nat.add_comm]

theorem successes_allSucceed {t : Traffic} (numbered : t.Numbered) (now : Instant) :
    successes i t (allSucceed i now t) = t.inFlight i := by
  rw [allSucceed, successes_answers numbered now, inFlight, List.countP_eq_length_filter]
  · intro f member
    exact of_decide_eq_true (List.mem_filter.mp member).2
  · exact List.filter_subset_self _
  · exact numbered.nodup.sublist (List.filter_sublist.map _)

end Flights

section Ceiling

variable (i : Nat)

def exhausted? (t : Traffic) : Option Instant := (t.key? i).bind (·.health.exhaustedUntil?)

/-- When the first monthly park of key `i` in the run ends. -/
def firstExhausted? (t : Traffic) : List Event → Option Instant
  | [] => exhausted? i t
  | e :: es => (exhausted? i t).or (firstExhausted? (t.step e) es)

/-- The run is not past the end of the first monthly park of key `i`. -/
def Unexpired (t : Traffic) (es : List Event) : Prop :=
  ∀ u ∈ firstExhausted? i t es, Runs.clock Event.time 0 es ≤ u

/-- Up to the end of its first monthly park, at most `c` successes are recorded for key `i`. -/
def CapHeld (c : Nat) (t : Traffic) (es : List Event) : Prop :=
  ∀ seen rest, es = seen ++ rest → Unexpired i t seen → successes i t seen ≤ c

/-- Whoever asks up to then and finds key `i` eligible finds room under its cap beside the leases that
    are out. Where none is out and the key has not been parked for the month, any cap but 0 is room. -/
def AskedWithRoom (t : Traffic) (es : List Event) : Prop :=
  ∀ seen now exclude rest k c, es = seen ++ .acquire now exclude :: rest →
    (∀ u ∈ firstExhausted? i t seen, now ≤ u) → (t.after seen).key? i = some k →
    k.monthlyCapOverride = some c → k.Eligible now t.pool.window →
    k.stats.ok + (t.after seen).inFlight i < c ∨
      0 < c ∧ (t.after seen).inFlight i = 0 ∧ firstExhausted? i t seen = none

/-- The run up to some point, where whoever asks may exclude other keys than it did, and then other
    answers to what is out. -/
inductive Replayed (es : List Event) : List Event → Prop
  | answered (seen rest answers) (split : es = seen ++ rest)
      (answering : ∀ e ∈ answers, ∃ now id o, e = .answer now id o) : Replayed es (seen ++ answers)
  | asked (seen now exclude exclude' rest answers) (split : es = seen ++ .acquire now exclude :: rest)
      (answering : ∀ e ∈ answers, ∃ now id o, e = .answer now id o) :
      Replayed es (seen ++ .acquire now exclude' :: answers)

variable {i}

theorem firstExhausted?_append (t : Traffic) (as bs : List Event) :
    firstExhausted? i t (as ++ bs) =
      (firstExhausted? i t as).or (firstExhausted? i (t.after as) bs) := by
  induction as generalizing t with
  | nil =>
    cases bs with
    | nil => cases h : exhausted? i t <;> simp [firstExhausted?, after, h]
    | cons e es => cases h : exhausted? i t <;> simp [firstExhausted?, after, h]
  | cons a as ih =>
    simp only [List.cons_append, firstExhausted?, ih, Option.or_assoc]
    rfl

theorem Unexpired.last {t : Traffic} {seen : List Event} {e : Event}
    (unexpired : Unexpired i t (seen ++ [e])) : ∀ u ∈ firstExhausted? i t seen, e.time ≤ u := by
  intro u first
  have same : u ∈ firstExhausted? i t (seen ++ [e]) := by
    rw [firstExhausted?_append, Option.mem_def.mp first]
    rfl
  have past := unexpired u same
  rw [Runs.clock_append] at past
  exact past

theorem Unexpired.before {t : Traffic} {seen : List Event} {e : Event}
    (ordered : Runs.Ordered Event.time 0 (seen ++ [e])) (unexpired : Unexpired i t (seen ++ [e])) :
    Unexpired i t seen := by
  intro u first
  obtain ⟨-, le, -⟩ := (Runs.ordered_append Event.time 0 seen [e]).mp ordered
  exact le.trans (unexpired.last u first)

theorem exhausted?_of_firstExhausted? {t : Traffic} {es : List Event}
    (none : firstExhausted? i t es = .none) : exhausted? i t = .none := by
  cases es with
  | nil => exact none
  | cons e es => exact (Option.or_eq_none_iff.mp none).1

/-- Before its first monthly park, a key that starts below its cap is below it. -/
theorem below_cap_before_park {t : Traffic} {es : List Event} {k k' : KeyState} {c : Nat}
    (here : t.key? i = some k) (there : (t.after es).key? i = some k')
    (cap : k.monthlyCapOverride = some c) (low : k.stats.ok < c)
    (unparked : firstExhausted? i t es = none) : k'.stats.ok < c := by
  induction es generalizing t k with
  | nil =>
    obtain rfl := Option.some.inj (there.symm.trans here)
    exact low
  | cons e es ih =>
    obtain ⟨k₁, next, turn⟩ := t.step_key here e
    have later := (Option.or_eq_none_iff.mp unparked).2
    have fresh := exhausted?_of_firstExhausted? later
    rw [exhausted?, next, Option.bind_some] at fresh
    exact ih next there (turn.cap.trans cap) (turn.below_cap cap low fresh) later

theorem firstExhausted?_le {t : Traffic} {es : List Event} {now u : Instant}
    (at_ : ∀ e ∈ es, e.time = now) (fresh : exhausted? i t = none)
    (first : firstExhausted? i t es = some u) : now ≤ u := by
  induction es generalizing t with
  | nil =>
    rw [firstExhausted?, fresh] at first
    cases first
  | cons e es ih =>
    rw [firstExhausted?, fresh, Option.none_or] at first
    cases next : exhausted? i (t.step e) with
    | none => exact ih (fun e' member => at_ e' (List.mem_cons_of_mem _ member)) next first
    | some v =>
      have same : firstExhausted? i (t.step e) es = some v := by
        cases es <;> simp [firstExhausted?, next]
      rw [same] at first
      cases first
      obtain ⟨k', there, exhausted⟩ := Option.bind_eq_some_iff.mp next
      obtain ⟨k, here⟩ := key_of_after t [e] there
      obtain ⟨_, there', turn⟩ := t.step_key here e
      obtain rfl := Option.some.inj (there.symm.trans there')
      have fresh' : k.health.exhaustedUntil? = none := by
        rw [exhausted?, here, Option.bind_some] at fresh
        exact fresh
      rw [← at_ e List.mem_cons_self]
      exact turn.exhausted fresh' exhausted

theorem fresh_of_firstExhausted? {t : Traffic} {es : List Event}
    (none : firstExhausted? i t es = .none) : exhausted? i (t.after es) = .none := by
  have last := firstExhausted?_append (i := i) t es []
  rw [List.append_nil, none, Option.none_or] at last
  exact last.symm

theorem Unexpired.append {t : Traffic} {seen later : List Event} {now : Instant}
    (open_ : ∀ u ∈ firstExhausted? i t seen, now ≤ u)
    (reached : Runs.clock Event.time 0 (seen ++ later) = now) (at_ : ∀ e ∈ later, e.time = now) :
    Unexpired i t (seen ++ later) := by
  intro u first
  rw [reached]
  rw [Option.mem_def, firstExhausted?_append] at first
  cases before : firstExhausted? i t seen with
  | some v =>
    rw [before, Option.some_or] at first
    cases first
    exact open_ u before
  | none =>
    rw [before, Option.none_or] at first
    exact firstExhausted?_le at_ (fresh_of_firstExhausted? before) first

theorem within_ceiling {c : Nat} {t : Traffic} {seen : List Event} (start : t.inFlight i = 0)
    (ordered : Runs.Ordered Event.time 0 seen) (unexpired : Unexpired i t seen)
    (room : ∀ first e rest, seen = first ++ e :: rest →
      (∀ u ∈ firstExhausted? i t first, e.time ≤ u) → (t.after first).leased e = some i →
      successes i t first + (t.after first).inFlight i < c) :
    successes i t seen + (t.after seen).inFlight i ≤ c := by
  induction seen using List.reverseRecOn with
  | nil => exact start ▸ Nat.zero_le c
  | append_singleton seen e ih =>
    have past := ((Runs.ordered_append Event.time 0 seen [e]).mp ordered).1
    have before := ih past (unexpired.before ordered) fun first e' rest split =>
      room first e' (rest ++ [e]) (by rw [split]; simp)
    have flown := inFlight_step (i := i) (t.after seen) e
    have counted : (succeeds i (t.after seen) e).toList.length ≤
        (recorded i (t.after seen) e).toList.length := by
      unfold succeeds
      cases recorded i (t.after seen) e with
      | none => exact Nat.le_refl _
      | some o => cases h : o.isSuccess <;> simp [Option.filter_some, h]
    have last : successes i (t.after seen) [e] = (succeeds i (t.after seen) e).toList.length := by
      rw [successes_cons]
      rfl
    rw [successes_append, last, after_concat]
    by_cases leased : (t.after seen).leased e = some i
    · have fewer := room seen e [] rfl unexpired.last leased
      rw [if_pos leased] at flown
      omega
    · rw [if_neg leased] at flown
      omega

section New

variable (host : Host) (tokens : List String) (cfg : PoolConfig) {c : Nat}

theorem numbered_run (es : List Event) : ((new host tokens cfg).after es).Numbered :=
  Runs.exec_invariant' (I := Numbered) (fun _ e numbered => numbered.step e) es
    ⟨List.nodup_nil, fun _ member => by cases member⟩

/-- Whoever finds the key eligible gets it by excluding the others; when then all that is out succeeds,
    the cap is exceeded unless there was room. -/
theorem room_of_held {seen rest : List Event} {now : Instant} {exclude : List Nat} {k : KeyState}
    (ordered : Runs.Ordered Event.time 0 (seen ++ .acquire now exclude :: rest))
    (held : ∀ es', Replayed (seen ++ .acquire now exclude :: rest) es' →
      Runs.Ordered Event.time 0 es' → CapHeld i c (new host tokens cfg) es')
    (open_ : ∀ u ∈ firstExhausted? i (new host tokens cfg) seen, now ≤ u)
    (here : ((new host tokens cfg).after seen).key? i = some k)
    (eligible : k.Eligible now (new host tokens cfg).pool.window) :
    successes i (new host tokens cfg) seen + ((new host tokens cfg).after seen).inFlight i < c := by
  obtain ⟨past, le, -⟩ := (Runs.ordered_append Event.time 0 seen _).mp ordered
  have free := (new_free_iff host tokens cfg past here now).mpr eligible
  obtain ⟨exclude', leased⟩ := Pool.leased_of_free _ here free
  have numbered := numbered_run host tokens cfg (seen ++ [.acquire now exclude'])
  obtain ⟨flown, quiet⟩ := inFlight_leased (e := .acquire now exclude') leased
  let answers := allSucceed i now ((new host tokens cfg).after (seen ++ [.acquire now exclude']))
  have at_ : ∀ e ∈ Event.acquire now exclude' :: answers, e.time = now := by
    intro e member
    rcases List.mem_cons.mp member with rfl | member
    · rfl
    · obtain ⟨f, -, rfl⟩ := List.mem_map.mp member
      rfl
  have answering : ∀ e ∈ answers, ∃ now id o, e = .answer now id o := by
    intro e member
    obtain ⟨f, -, rfl⟩ := List.mem_map.mp member
    exact ⟨_, _, _, rfl⟩
  have later : Runs.Ordered Event.time now answers :=
    (Runs.ordered_const fun e member => at_ e (List.mem_cons_of_mem _ member)).1
  have reached : Runs.clock Event.time 0 (seen ++ .acquire now exclude' :: answers) = now := by
    rw [Runs.clock_append]
    exact (Runs.ordered_const fun e member => at_ e (List.mem_cons_of_mem _ member)).2
  have ordered' : Runs.Ordered Event.time 0 (seen ++ .acquire now exclude' :: answers) :=
    (Runs.ordered_append Event.time 0 seen _).mpr ⟨past, le, later⟩
  have count := held _ (.asked seen now exclude exclude' rest answers rfl answering) ordered' _ []
    (List.append_nil _).symm (Unexpired.append open_ reached at_)
  have none : successes i ((new host tokens cfg).after seen) [.acquire now exclude'] = 0 := by
    rw [successes_cons, succeeds, quiet]
    rfl
  have regroup : seen ++ .acquire now exclude' :: answers =
      (seen ++ [.acquire now exclude']) ++ answers := by simp
  rw [regroup, successes_append, successes_append, none, successes_allSucceed numbered, after_concat,
    flown] at count
  omega

/-- Whoever gets a lease in the other run asks for one in the run itself, after the same events. -/
theorem Replayed.asking {es es' before after : List Event} {e : Event} {t : Traffic}
    (replayed : Replayed es es') (split : es' = before ++ e :: after)
    (leased : (t.after before).leased e = some i) :
    ∃ now exclude exclude' rest, e = .acquire now exclude' ∧
      es = before ++ .acquire now exclude :: rest := by
  obtain ⟨now, exclude', rfl⟩ := acquire_of_leased leased
  have unanswered : ∀ {answers : List Event}, (∀ e ∈ answers, ∃ now id o, e = .answer now id o) →
      Event.acquire now exclude' ∉ answers := by
    intro answers answering member
    obtain ⟨_, _, _, same⟩ := answering _ member
    cases same
  cases replayed with
  | answered seen rest answers same answering =>
    rcases List.append_eq_append_iff.mp split with ⟨gap, -, rfl⟩ | ⟨tail, rfl, found⟩
    · exact absurd (by simp) (unanswered answering)
    · cases tail with
      | nil =>
        rw [List.nil_append] at found
        rw [← found] at answering
        exact absurd List.mem_cons_self (unanswered answering)
      | cons head tail =>
        rw [List.cons_append, List.cons_eq_cons] at found
        exact ⟨now, exclude', exclude', tail ++ rest, rfl, by rw [same, ← found.1]; simp⟩
  | asked seen asked exclude exclude₁ rest answers same answering =>
    rcases List.append_eq_append_iff.mp split with ⟨gap, rfl, found⟩ | ⟨tail, rfl, found⟩
    · cases gap with
      | nil =>
        rw [List.nil_append] at found
        cases (List.cons_eq_cons.mp found).1
        exact ⟨now, exclude, exclude', rest, rfl, by rw [same]; simp⟩
      | cons head gap =>
        rw [List.cons_append, List.cons_eq_cons] at found
        rw [found.2] at answering
        exact absurd (by simp) (unanswered answering)
    · cases tail with
      | nil =>
        rw [List.nil_append] at found
        cases (List.cons_eq_cons.mp found).1
        exact ⟨now, exclude, exclude', rest, rfl, by rw [same]; simp⟩
      | cons head tail =>
        rw [List.cons_append, List.cons_eq_cons] at found
        exact ⟨now, exclude', exclude', tail ++ .acquire asked exclude :: rest, rfl,
          by rw [same, ← found.1]; simp⟩

theorem room_of_asked (cap : cfg.monthlyLimits[i]? = some (some c)) {es seen rest : List Event}
    {now : Instant} {exclude : List Nat} {k : KeyState}
    (room : AskedWithRoom i (new host tokens cfg) es)
    (split : es = seen ++ .acquire now exclude :: rest)
    (open_ : ∀ u ∈ firstExhausted? i (new host tokens cfg) seen, now ≤ u)
    (here : ((new host tokens cfg).after seen).key? i = some k)
    (eligible : k.Eligible now (new host tokens cfg).pool.window) :
    successes i (new host tokens cfg) seen + ((new host tokens cfg).after seen).inFlight i < c := by
  obtain ⟨capped, count⟩ := new_counted host tokens cfg cap here
  rw [← count]
  rcases room seen now exclude rest k c split open_ here capped eligible with few | ⟨some', none, fresh⟩
  · exact few
  · obtain ⟨k₀, start⟩ := key_of_after _ _ here
    have first : ((new host tokens cfg).after []).key? i = some k₀ := start
    obtain ⟨capped₀, unused⟩ := new_counted host tokens cfg cap first
    have low : k₀.stats.ok < c := by
      rw [unused]
      exact some'
    rw [none]
    exact below_cap_before_park start here capped₀ low fresh

theorem Replayed.refl (es : List Event) : Replayed es es := by
  have same : Replayed es (es ++ []) := by
    apply Replayed.answered es [] [] (List.append_nil es).symm
    simp
  rwa [List.append_nil] at same

theorem cap_held_of_asked (cap : cfg.monthlyLimits[i]? = some (some c)) {es es' : List Event}
    (room : AskedWithRoom i (new host tokens cfg) es) (replayed : Replayed es es')
    (ordered : Runs.Ordered Event.time 0 es') : CapHeld i c (new host tokens cfg) es' := by
  intro first rest' split unexpired
  have past : Runs.Ordered Event.time 0 first := by
    rw [split, Runs.ordered_append] at ordered
    exact ordered.1
  have roomy : ∀ before e after, first = before ++ e :: after →
      (∀ u ∈ firstExhausted? i (new host tokens cfg) before, e.time ≤ u) →
      ((new host tokens cfg).after before).leased e = some i →
      successes i (new host tokens cfg) before +
        ((new host tokens cfg).after before).inFlight i < c := by
    intro before e after same open_ leased
    have whole : es' = before ++ e :: (after ++ rest') := by
      rw [split, same]
      simp
    obtain ⟨now, exclude, exclude', rest, rfl, split'⟩ := replayed.asking whole leased
    obtain ⟨k, here⟩ := key_of_leased _ leased
    have past' : Runs.Ordered Event.time 0 before := by
      rw [same, Runs.ordered_append] at past
      exact past.1
    have eligible := (new_free_iff host tokens cfg past' here now).mp (free_of_leased _ here leased)
    exact room_of_asked host tokens cfg cap room split' open_ here eligible
  have ceiling := within_ceiling rfl past unexpired roomy
  exact (Nat.le_add_right _ _).trans ceiling

/-- The cap of a key is a ceiling in every run in which whoever asks finds room or does not find the key
    eligible; and this is what it takes, whatever keys the others exclude and however the leases that
    are out are answered. -/
theorem cap_held_iff (cap : cfg.monthlyLimits[i]? = some (some c)) {es : List Event}
    (ordered : Runs.Ordered Event.time 0 es) :
    (AskedWithRoom i (new host tokens cfg) es → CapHeld i c (new host tokens cfg) es) ∧
      ((∀ es', Replayed es es' → Runs.Ordered Event.time 0 es' →
          CapHeld i c (new host tokens cfg) es') ↔
        AskedWithRoom i (new host tokens cfg) es) := by
  have holds : AskedWithRoom i (new host tokens cfg) es →
      ∀ es', Replayed es es' → Runs.Ordered Event.time 0 es' →
        CapHeld i c (new host tokens cfg) es' :=
    fun room _ => cap_held_of_asked host tokens cfg cap room
  constructor
  · intro room
    exact holds room es (.refl es) ordered
  · refine ⟨?_, holds⟩
    intro held seen now exclude rest k c' split open_ here capped eligible
    subst split
    obtain ⟨same, count⟩ := new_counted host tokens cfg cap here
    obtain rfl := Option.some.inj (same.symm.trans capped)
    left
    rw [count]
    exact room_of_held host tokens cfg ordered held open_ here eligible

end New

/-- One request is allowed, and two are out. -/
def twoOut : List Event :=
  [.acquire 0 [], .acquire 2000000000 [], .answer 3000000000 0 (.response 200 none none),
    .answer 4000000000 1 (.response 200 none none)]

/-- It asks again once the answer has used up the cap. -/
def oneByOne : List Event :=
  [.acquire 0 [], .answer 1000000000 0 (.response 200 none none), .acquire 2000000000 []]

theorem asked_one_by_one : AskedWithRoom 0 (ofTests ["key"] [some 1]) oneByOne := by
  intro seen now exclude rest k c split open_ here capped eligible
  rcases seen with _ | ⟨e, _ | ⟨e', _ | ⟨e'', more⟩⟩⟩
  · cases here
    cases capped
    exact .inr ⟨Nat.one_pos, rfl, rfl⟩
  · cases split
  · cases split
    cases here
    exact absurd eligible (by decide)
  · simp [oneByOne] at split

theorem cap_held_one_by_one :
    successes 0 (ofTests ["key"] [some 1]) oneByOne = 1 ∧
      CapHeld 0 1 (ofTests ["key"] [some 1]) oneByOne :=
  ⟨rfl, (cap_held_iff _ _ _ rfl (by decide)).1 asked_one_by_one⟩

theorem cap_overshot :
    Runs.Ordered Event.time 0 twoOut ∧ ¬ CapHeld 0 1 (ofTests ["key"] [some 1]) twoOut := by
  refine ⟨by decide, ?_⟩
  intro held
  have count := held twoOut [] rfl (by unfold Unexpired; decide)
  exact absurd count (by decide)

end Ceiling

end Traffic

end BraveRotator
