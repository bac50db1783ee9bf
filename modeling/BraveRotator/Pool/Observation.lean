import BraveRotator.Pool.Likeness
import BraveRotator.Pool.Rotation

namespace BraveRotator

namespace KeyState

variable {now : Instant} {window : Duration} {i : Nat} {c : Call} {leased : Option Nat}
  {k k₁ k' k₁' : KeyState}

/-- A call that leases the same keys does the same to keys that are alike. -/
theorem Alike.change (alike : k.Alike now window k') (le : now ≤ c.time)
    (unused : k.lastUsed = none → k.health = .ok)
    (recorded : ∀ now o, c = .record now i o → k.lastUsed ≠ none)
    (change : k.Change window i c leased k₁) (change' : k'.Change window i c leased k₁') :
    k₁.Alike c.time window k₁' := by
  have current := alike.later le
  cases change with
  | digested now o =>
    cases change' with
    | digested => exact current.digest (recorded now o rfl) o
    | bystander _ _ _ other => exact absurd rfl other
    | tidied _ _ _ passive => exact absurd rfl (passive now i o)
  | bystander now j o other =>
    cases change' with
    | digested => exact absurd rfl other
    | bystander => exact current
    | tidied _ _ _ passive => exact absurd rfl (passive now j o)
  | granted now exclude free =>
    cases change' with
    | granted _ _ free' => exact current.grant free free'
    | tidied _ _ _ _ other => exact absurd rfl other
  | tidied _ _ _ passive other tidied =>
    cases change' with
    | digested now o => exact absurd rfl (passive now i o)
    | bystander now j o => exact absurd rfl (passive now j o)
    | granted => exact absurd rfl other
    | tidied _ _ _ _ _ tidied' =>
      have unused' : k'.lastUsed = none → k'.health = .ok := fun none =>
        ((alike.unused (alike.lastUsed ▸ none)).1).trans (unused (alike.lastUsed ▸ none))
      exact ((alike_tidied unused tidied).symm.trans current).trans (alike_tidied unused' tidied')

theorem Change.freshUnused (change : k.Change window i c leased k')
    (unused : k.lastUsed = none → k.health = .ok)
    (recorded : ∀ now o, c = .record now i o → k.lastUsed ≠ none) :
    k'.lastUsed = none → k'.health = .ok := by
  intro none
  cases change with
  | digested now o =>
    have same : (k.digest now o).1.lastUsed = k.lastUsed :=
      congrArg Fixed.lastUsed (k.digest_effect now o).fixed
    exact absurd (same.symm.trans none) (recorded now o rfl)
  | bystander => exact unused none
  | granted now exclude free => cases none
  | tidied _ _ _ passive other tidied =>
    rcases tidied with rfl | rfl
    · have ok := unused ((k.refresh_lastUsed _).symm.trans none)
      rw [refresh_of_ok ok]
      exact ok
    · rw [availability_lastUsed, refresh_lastUsed] at none
      rw [availability_health, refresh_of_ok (unused none)]
      exact unused none

end KeyState

/-- The call is no `record`. -/
def Call.Passive (c : Call) : Prop := ∀ now i outcome, c ≠ .record now i outcome

/-- What the caller of `acquire` and `record` goes by. -/
inductive Answer where
  | acquired (told : Told)
  | recorded (verdict : Verdict)
  | observed
  deriving DecidableEq

def Reply.answer : Reply → Answer
  | .acquired result => .acquired (told result)
  | .recorded verdict => .recorded verdict
  | .observed _ => .observed

namespace Pool

variable {now : Instant} {p p' p'' : Pool} {c : Call}

def answer (p : Pool) (c : Call) : Answer := (p.serve c).2.answer

theorem leased_eq_of_told {exclude : List Nat}
    (same : told (p'.tryAcquire now exclude).2 = told (p.tryAcquire now exclude).2) :
    p'.leased (.tryAcquire now exclude) = p.leased (.tryAcquire now exclude) := by
  have idx : ∀ result : Except Next Lease, result.toOption.map Lease.idx =
      match told result with
      | .leased lease => some lease.idx
      | _ => none := by
    intro result
    rcases result with (u | ⟨earliest, summary⟩) | lease <;> rfl
  rw [leased_tryAcquire, leased_tryAcquire, idx, idx, same]

theorem Alike.trans (first : p.Alike now p') (second : p'.Alike now p'') : p.Alike now p'' := by
  refine ⟨second.window.trans first.window, second.length.trans first.length, ?_⟩
  intro i k k'' here there
  obtain ⟨k', between, alike⟩ := first.key here
  have alike' := second.keys i k' k'' between there
  rw [first.window] at alike'
  exact alike.trans alike'

theorem Alike.freshUnused (alike : p.Alike now p') (unused : p.FreshUnused) : p'.FreshUnused := by
  intro k' member none
  obtain ⟨i, there⟩ := List.mem_iff_getElem?.mp member
  obtain ⟨k, here, same⟩ := alike.symm.key there
  have used := same.lastUsed.trans none
  exact ((same.unused none).1).symm.trans (unused k (List.mem_of_getElem? here) used)

/-- A call that records and leases nothing leaves the pool alike. -/
theorem alike_step (unused : p.FreshUnused) (passive : c.Passive) (idle : p.leased c = none) :
    p.Alike c.time (p.step c) := by
  refine ⟨p.step_window c, p.step_length c, ?_⟩
  intro i k k' here there
  obtain ⟨k₀, here', change⟩ := p.step_key_inv there
  obtain rfl : k₀ = k := Option.some.inj (here'.symm.trans here)
  rw [idle] at change
  cases change with
  | digested now o => exact absurd rfl (passive now i o)
  | bystander now j o => exact absurd rfl (passive now j o)
  | tidied _ _ _ _ _ tidied =>
    exact KeyState.alike_tidied (unused k₀ (List.mem_of_getElem? here)) tidied

theorem Alike.answer (alike : p.Alike now p') (le : now ≤ c.time) (unused : p.FreshUnused)
    (apart : p.UsedApart) : p'.answer c = p.answer c ∧ p'.leased c = p.leased c := by
  cases c with
  | tryAcquire t exclude =>
    have same : told (p'.tryAcquire t exclude).2 = told (p.tryAcquire t exclude).2 :=
      (alike.later le).tells unused apart
    exact ⟨congrArg Answer.acquired same, leased_eq_of_told same⟩
  | record t i o =>
    refine ⟨congrArg Answer.recorded ?_, rfl⟩
    show (p'.record t i o).2 = (p.record t i o).2
    unfold record
    cases here : p.keys[i]? with
    | none =>
      have outside : p'.keys[i]? = none := by
        rw [List.getElem?_eq_none_iff] at here ⊢
        rw [alike.length]
        exact here
      rw [outside]
    | some k =>
      obtain ⟨k', there, -⟩ := alike.key here
      rw [there]
      cases o with
      | transport err => rfl
      | response status rl bodySnippet =>
        simp only [KeyState.digest]
        repeat' split
        all_goals rfl
  | snapshot t => exact ⟨rfl, rfl⟩

theorem Alike.step (alike : p.Alike now p') (le : now ≤ c.time) (unused : p.FreshUnused)
    (apart : p.UsedApart)
    (recorded : ∀ (i : Nat) (k : KeyState), p.keys[i]? = some k →
      ∀ now o, c = .record now i o → k.lastUsed ≠ none) :
    (p.step c).Alike c.time (p'.step c) := by
  have leased := (alike.answer le unused apart).2
  refine ⟨?_, ?_, ?_⟩
  · rw [step_window, step_window, alike.window]
  · rw [step_length, step_length, alike.length]
  · intro i k₁ k₁' there there'
    obtain ⟨k, here, change⟩ := p.step_key_inv there
    obtain ⟨k', here', change'⟩ := p'.step_key_inv there'
    rw [leased, alike.window] at change'
    rw [step_window]
    exact (alike.keys i k k' here here').change le (unused k (List.mem_of_getElem? here))
      (recorded i k here) change change'

/-- Outcomes are recorded for keys that have been leased. -/
def RecordsLeased (p : Pool) (cs : List Call) : Prop :=
  ∀ before now i outcome rest, cs = before ++ .record now i outcome :: rest → i ∈ p.turns before

theorem RecordsLeased.before {as bs : List Call} (recorded : p.RecordsLeased (as ++ bs)) :
    p.RecordsLeased as := by
  intro before now i outcome rest split
  apply recorded before now i outcome (rest ++ bs)
  rw [split, List.append_assoc, List.cons_append]

/-- A call of the run, or one that is inserted into it. -/
inductive Entry where
  | own (call : Call)
  | inserted (call : Call)

def Entry.call : Entry → Call
  | .own call => call
  | .inserted call => call

def Entry.own? : Entry → Option Call
  | .own call => some call
  | .inserted _ => none

/-- Only snapshots and failing acquires are inserted. -/
def Idle (p : Pool) : Entry → Prop
  | .own _ => True
  | .inserted call => call.Passive ∧ p.leased call = none

def enter (p : Pool) (e : Entry) : Pool := p.step e.call

section New

variable (host : Host) (tokens : List String) (cfg : PoolConfig)

theorem used_of_turn {cs : List Call} (increasing : Increasing ((new host tokens cfg).leases cs))
    {i : Nat} {k : KeyState} (here : ((new host tokens cfg).after cs).keys[i]? = some k)
    (turn : i ∈ (new host tokens cfg).turns cs) : k.lastUsed ≠ none := by
  rw [(remembers_run host tokens cfg increasing.inOrder i k here).lastUsed]
  rw [turns_eq] at turn
  obtain ⟨⟨j, t⟩, member, same⟩ := List.mem_map.mp turn
  have granted : t ∈ (new host tokens cfg).grants i cs := by
    rw [grants, mem_timesOf, ← same]
    exact member
  rw [ne_eq, List.getLast?_eq_none_iff]
  exact List.ne_nil_of_mem granted

theorem usedApart_run {cs : List Call} (increasing : Increasing ((new host tokens cfg).leases cs)) :
    ((new host tokens cfg).after cs).UsedApart := by
  intro i j k k' t here there last last'
  have remembers := remembers_run host tokens cfg increasing.inOrder
  rw [(remembers i k here).lastUsed] at last
  rw [(remembers j k' there).lastUsed] at last'
  have granted : (i, t) ∈ (new host tokens cfg).leases cs :=
    mem_timesOf.mp (List.mem_of_getLast? last)
  have granted' : (j, t) ∈ (new host tokens cfg).leases cs :=
    mem_timesOf.mp (List.mem_of_getLast? last')
  have one : ∀ a ∈ (new host tokens cfg).leases cs, ∀ b ∈ (new host tokens cfg).leases cs,
      a.2 = b.2 → a.1 = b.1 :=
    fun _ left _ right => List.Pairwise.forall_of_forall_of_flip
      (R := fun a b : Nat × Instant => a.2 = b.2 → a.1 = b.1) (fun _ _ _ => rfl)
      (increasing.imp fun lt same => absurd same lt.ne)
      (increasing.imp fun lt same => absurd same lt.ne') left right
  exact one _ granted _ granted' rfl

theorem freshUnused_run {cs : List Call}
    (increasing : Increasing ((new host tokens cfg).leases cs))
    (recorded : (new host tokens cfg).RecordsLeased cs) :
    ((new host tokens cfg).after cs).FreshUnused := by
  induction cs using List.reverseRecOn with
  | nil =>
    intro k member _
    obtain ⟨i, here⟩ := List.mem_iff_getElem?.mp member
    obtain ⟨token, rfl⟩ := new_key host tokens cfg here
    rfl
  | append_singleton cs c ih =>
    have before : Increasing ((new host tokens cfg).leases cs) := by
      rw [leases, Runs.collect_append] at increasing
      exact increasing.before
    have unused := ih before recorded.before
    intro k' member
    obtain ⟨i, there⟩ := List.mem_iff_getElem?.mp member
    rw [after_concat] at there
    obtain ⟨k, here, change⟩ := step_key_inv _ there
    refine change.freshUnused (unused k (List.mem_of_getElem? here)) ?_
    rintro now o rfl
    exact used_of_turn host tokens cfg before here (recorded cs now i o [] rfl)

/-- The pool that is watched stays like the one that is not, and answers alike. -/
theorem observed_run {entries : List Entry}
    (ordered : Runs.Ordered Call.time 0 (entries.map Entry.call))
    (idle : Runs.Along enter Idle (new host tokens cfg) entries)
    (increasing : Increasing ((new host tokens cfg).leases (entries.filterMap Entry.own?)))
    (recorded : (new host tokens cfg).RecordsLeased (entries.filterMap Entry.own?)) :
    ((new host tokens cfg).after (entries.filterMap Entry.own?)).Alike
        (Runs.clock Call.time 0 (entries.map Entry.call))
        (Runs.exec enter (new host tokens cfg) entries) ∧
      Runs.collect enter (fun p e => e.own?.map p.answer) (new host tokens cfg) entries =
        Runs.collect step (fun p c => some (p.answer c)) (new host tokens cfg)
          (entries.filterMap Entry.own?) := by
  induction entries using List.reverseRecOn with
  | nil =>
    refine ⟨⟨rfl, rfl, ?_⟩, rfl⟩
    intro i k k' here there
    obtain rfl : k = k' := Option.some.inj (here.symm.trans there)
    exact .refl _ _ k
  | append_singleton entries e ih =>
    rw [List.map_append] at ordered
    rw [List.filterMap_append] at increasing recorded
    obtain ⟨past, le, -⟩ := (Runs.ordered_append ..).mp ordered
    obtain ⟨idle, last, -⟩ := (Runs.along_append ..).mp idle
    have before : Increasing ((new host tokens cfg).leases (entries.filterMap Entry.own?)) := by
      rw [leases, Runs.collect_append] at increasing
      exact increasing.before
    obtain ⟨alike, same⟩ := ih past idle before recorded.before
    have unused := freshUnused_run host tokens cfg before recorded.before
    have apart := usedApart_run host tokens cfg before
    rw [List.map_append, List.filterMap_append, Runs.exec_append, Runs.collect_append,
      Runs.collect_append, Runs.clock_append, same, after_append]
    cases e with
    | inserted c =>
      refine ⟨?_, congrArg _ rfl⟩
      exact (alike.later le).trans (alike_step (alike.freshUnused unused) last.1 last.2)
    | own c =>
      have answer := (alike.answer le unused apart).1
      constructor
      · refine alike.step le unused apart ?_
        intro i k here now o call
        apply used_of_turn host tokens cfg before here
        exact recorded _ now i o [] (by rw [← call]; rfl)
      · exact congrArg (fun a => _ ++ [a]) answer

/-- Observation does not disturb scheduling: what is inserted into a run leaves the answers of its
    own calls as they were. -/
theorem observation_harmless (entries : List Entry)
    (ordered : Runs.Ordered Call.time 0 (entries.map Entry.call))
    (idle : Runs.Along enter Idle (new host tokens cfg) entries)
    (increasing : Increasing ((new host tokens cfg).leases (entries.filterMap Entry.own?)))
    (recorded : (new host tokens cfg).RecordsLeased (entries.filterMap Entry.own?)) :
    Runs.collect enter (fun p e => e.own?.map p.answer) (new host tokens cfg) entries =
      Runs.collect step (fun p c => some (p.answer c)) (new host tokens cfg)
        (entries.filterMap Entry.own?) :=
  (observed_run host tokens cfg ordered idle increasing recorded).2

end New

theorem health_check_harmless :
    Runs.collect enter (fun p e => e.own?.map p.answer) (ofTests ["key"] [])
        [.own (.tryAcquire 0 []), .inserted (.tryAcquire 500000000 [0]), .inserted (.snapshot 600000000),
          .own (.record 700000000 0 (.transport "timeout")), .own (.tryAcquire 1000000000 [])] =
      [.acquired (.leased ⟨0, "key", "k1:..key"⟩), .recorded .retryOtherKey,
        .acquired (.waits 1100000000)] := by
  have idle : Runs.Along enter Idle (ofTests ["key"] [])
      [.own (.tryAcquire 0 []), .inserted (.tryAcquire 500000000 [0]), .inserted (.snapshot 600000000),
        .own (.record 700000000 0 (.transport "timeout")), .own (.tryAcquire 1000000000 [])] := by
    refine ⟨trivial, ⟨?_, by decide⟩, ⟨?_, by decide⟩, trivial, trivial, trivial⟩
    · intro now i outcome same
      cases same
    · intro now i outcome same
      cases same
  have increasing : Increasing ((ofTests ["key"] []).leases [.tryAcquire 0 [],
      .record 700000000 0 (.transport "timeout"), .tryAcquire 1000000000 []]) := by
    unfold Increasing
    decide
  have recorded : (ofTests ["key"] []).RecordsLeased [.tryAcquire 0 [],
      .record 700000000 0 (.transport "timeout"), .tryAcquire 1000000000 []] := by
    intro before now i outcome rest split
    rcases before with _ | ⟨c₁, _ | ⟨c₂, _ | ⟨c₃, before⟩⟩⟩
    · simp at split
    · simp only [List.cons_append, List.nil_append, List.cons.injEq, Call.record.injEq] at split
      rw [← split.1, ← split.2.1.2.1]
      decide
    · simp at split
    · simp at split
  exact (observation_harmless _ _ _ _ (by decide) idle increasing recorded).trans (by decide)

end Pool

end BraveRotator
