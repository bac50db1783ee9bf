import Mathlib.Algebra.Order.Sub.Basic
import BraveRotator.Lib.Slots
import BraveRotator.Key.Effects
import BraveRotator.Key.Waiting
import BraveRotator.Pool.Step
import BraveRotator.Pool.Totals

namespace BraveRotator

namespace KeyState

/-- No cast of the key's counts to `u32` truncates. -/
structure Sized (k : KeyState) : Prop where
  length : k.sends.length ≤ u32Max
  positive : 1 ≤ k.secLimit
  bounded : k.secLimit ≤ u32Max

/-- A look at `now` leaves the key as it is. -/
def Settled (now : Instant) (window : Duration) (k : KeyState) : Prop := k.swept now window = k

section Sized

variable {window : Duration} {now : Instant} {k k' : KeyState}

theorem wrapU32_of_le {n : Nat} (le : n ≤ u32Max) : wrapU32 n = n :=
  Nat.mod_eq_of_lt (Nat.lt_succ_of_le le)

theorem Sized.availability (sized : k.Sized) (now : Instant) (window : Duration) :
    (k.availability now window).1.Sized := by
  have secLimit := k.availability_secLimit now window
  refine ⟨?_, secLimit ▸ sized.positive, secLimit ▸ sized.bounded⟩
  rcases k.availability_sends now window with same | same
  · rw [same]
    exact sized.length
  · rw [same]
    exact (List.dropWhile_sublist _).length_le.trans sized.length

theorem Sized.refresh (sized : k.Sized) (now : Instant) : (k.refresh now).Sized := by
  obtain ⟨_, _, _, same⟩ := k.refresh_fields now
  rw [same]
  exact ⟨sized.length, sized.positive, sized.bounded⟩

theorem Sized.tidied (sized : k.Sized) (tidied : k.Tidied now window k') : k'.Sized := by
  rcases tidied with rfl | rfl
  · exact sized.refresh now
  · exact (sized.refresh now).availability now window

theorem Sized.digest (sized : k.Sized) (now : Instant) (o : Outcome) : (k.digest now o).1.Sized := by
  have effect := k.digest_effect now o
  have sends : (k.digest now o).1.sends = k.sends := congrArg Fixed.sends effect.fixed
  refine ⟨sends ▸ sized.length, ?_, ?_⟩
  · rw [effect.secLimit]
    cases learned : o.learned? with
    | none => exact sized.positive
    | some l => exact (Outcome.learned?_bounds learned).1
  · rw [effect.secLimit]
    cases learned : o.learned? with
    | none => exact sized.bounded
    | some l => exact (Outcome.learned?_bounds learned).2.trans (by decide)

theorem Sized.grant (sized : k.Sized) (room : k.sends.length < k.secLimit) : (k.grant now).Sized := by
  refine ⟨?_, sized.positive, sized.bounded⟩
  show (k.sends ++ [now]).length ≤ u32Max
  rw [List.length_append, List.length_singleton]
  exact (Nat.succ_le_of_lt room).trans sized.bounded

theorem Sized.room (sized : k.Sized) (free : (k.availability now window).2 = .ok ()) :
    (k.availability now window).1.sends.length < k.secLimit := by
  have room := (availability_ok_iff.mp free).2.2
  rw [max_eq_left sized.positive] at room
  rw [availability_of_ok free]
  have fits : (k.pruneWindow now window).sends.length ≤ u32Max :=
    (List.dropWhile_sublist _).length_le.trans sized.length
  rw [wrapU32_of_le fits] at room
  exact room

theorem Sized.change {i : Nat} {c : Call} {leased : Option Nat} (sized : k.Sized)
    (change : k.Change window i c leased k') : k'.Sized := by
  cases change with
  | digested now o => exact sized.digest now o
  | bystander now j o other => exact sized
  | granted now exclude free =>
    have refreshed := sized.refresh now
    have room := refreshed.room free
    rw [← availability_secLimit (k.refresh now) now window] at room
    exact (refreshed.availability now window).grant room
  | tidied _ _ _ passive other tidied => exact sized.tidied tidied

end Sized

section Settled

variable {window : Duration} {now : Instant} {k : KeyState}

theorem settled_swept (k : KeyState) (now : Instant) (window : Duration) :
    (k.swept now window).Settled now window := by
  have same : (k.swept now window).look now window = k.look now window :=
    look_of_tidied (.inr rfl) le_rfl
  exact congrArg Prod.fst same

theorem Settled.refresh (settled : k.Settled now window) : k.refresh now = k := by
  by_cases healthy : k.Healthy now
  · have ok : k.health = .ok := by
      rw [← settled, swept, availability_health]
      exact k.refresh_of_healthy now healthy
    exact refresh_of_ok ok now
  · exact k.refresh_of_parked now healthy

theorem Settled.availability (settled : k.Settled now window) :
    (k.availability now window).1 = k := by
  have same : (k.refresh now).availability now window = k.availability now window := by
    rw [settled.refresh]
  rw [← same]
  exact settled

theorem Settled.free (settled : k.Settled now window)
    (free : (k.availability now window).2 = .ok ()) :
    k.health = .ok ∧ k.holdUntil = none ∧ (k.pruneWindow now window).sends = k.sends := by
  have same := availability_of_ok free
  rw [settled.availability] at same
  exact ⟨(availability_ok_iff.mp free).1, congrArg KeyState.holdUntil same,
    (congrArg KeyState.sends same).symm⟩

theorem freeSlots_pos_iff : 0 < k.freeSlots ↔
    k.health = .ok ∧ k.holdUntil = none ∧ wrapU32 k.sends.length < max k.secLimit 1 := by
  unfold freeSlots
  cases health : k.health <;> cases hold : k.holdUntil <;> simp [Health.isOk]

/-- The status page and the scheduler agree on whether a key is free. -/
theorem Settled.free_iff (settled : k.Settled now window) (sized : k.Sized) :
    (k.availability now window).2 = .ok () ↔ 0 < k.freeSlots := by
  rw [freeSlots_pos_iff]
  constructor
  · intro free
    obtain ⟨ok, unheld, pruned⟩ := settled.free free
    have room := (availability_ok_iff.mp free).2.2
    rw [pruned] at room
    exact ⟨ok, unheld, room⟩
  · rintro ⟨ok, unheld, room⟩
    have shorter : (k.pruneWindow now window).sends.length ≤ k.sends.length :=
      (List.dropWhile_sublist _).length_le
    rw [wrapU32_of_le sized.length] at room
    refine availability_ok_iff.mpr ⟨ok, ?_, ?_⟩
    · rintro ⟨h, held, -⟩
      cases unheld.symm.trans held
    · rw [wrapU32_of_le (shorter.trans sized.length)]
      exact shorter.trans_lt room

theorem dropWhile_concat {α : Type*} {p : α → Bool} {as : List α} {a : α}
    (kept : as.dropWhile p = as) (last : p a = false) : (as ++ [a]).dropWhile p = as ++ [a] := by
  cases as with
  | nil => simp [last]
  | cons first as =>
    have front := List.head?_dropWhile_not p (first :: as)
    rw [kept] at front
    have front' : p first = false := by simpa using front
    rw [List.cons_append, List.dropWhile_cons_of_neg (by simp [front'])]

theorem Settled.grant (settled : k.Settled now window) (positive : 0 < window)
    (free : (k.availability now window).2 = .ok ()) : (k.grant now).Settled now window := by
  obtain ⟨ok, unheld, pruned⟩ := settled.free free
  have fresh : decide (window ≤ saturatingDurationSince now now) = false := by
    rw [saturatingDurationSince, Nat.sub_self]
    exact decide_eq_false (Nat.not_le.mpr positive)
  have unheld' : ¬ (k.grant now).Held now := by
    rintro ⟨h, held, -⟩
    cases unheld.symm.trans held
  have ok' : (k.grant now).health = .ok := ok
  have sends : ((k.grant now).pruneWindow now window).sends = (k.grant now).sends :=
    dropWhile_concat pruned fresh
  unfold Settled swept
  rw [refresh_of_ok ok' now, availability_of_free _ now window ok' unheld']
  show ({ k.grant now with
    holdUntil := none, sends := ((k.grant now).pruneWindow now window).sends } : KeyState) = k.grant now
  rw [sends, ← unheld]
  rfl

theorem Settled.freeSlots_grant (settled : k.Settled now window) (sized : k.Sized)
    (free : (k.availability now window).2 = .ok ()) :
    (k.grant now).freeSlots + 1 = k.freeSlots := by
  obtain ⟨ok, unheld, -⟩ := settled.free free
  have room := (freeSlots_pos_iff.mp ((settled.free_iff sized).mp free)).2.2
  rw [wrapU32_of_le sized.length, max_eq_left sized.positive] at room
  have longer : (k.grant now).sends.length = k.sends.length + 1 := List.length_append
  have fits : k.sends.length + 1 ≤ u32Max := (Nat.succ_le_of_lt room).trans sized.bounded
  have before : k.freeSlots = k.secLimit - k.sends.length := by
    simp only [freeSlots, ok, unheld, Health.isOk, wrapU32_of_le sized.length,
      max_eq_left sized.positive]
    rfl
  have after : (k.grant now).freeSlots = k.secLimit - (k.sends.length + 1) := by
    have ok' : (k.grant now).health = .ok := ok
    have unheld' : (k.grant now).holdUntil = none := unheld
    have limit : max (k.grant now).secLimit 1 = k.secLimit := max_eq_left sized.positive
    simp only [freeSlots, ok', unheld', Health.isOk, longer, wrapU32_of_le fits, limit]
    rfl
  rw [before, after]
  omega

end Settled

end KeyState

namespace PoolSnapshot

variable (host : Host) (out : PoolSnapshot) (k : KeyState) (now : Instant)
  (avail : Except Instant Unit)

theorem visit_keysHealthy : (out.visit host k now avail).keysHealthy =
    out.keysHealthy + if k.health.isOk then 1 else 0 := by
  unfold visit
  cases k.health.isOk <;> cases k.monthUnlimited <;> rfl

theorem visit_keys : (out.visit host k now avail).keys = out.keys ++ [k.toSnapshot host now avail] := by
  unfold visit
  cases k.health.isOk <;> cases k.monthUnlimited <;> rfl

theorem visit_slots :
    (out.visit host k now avail).slotsAvailableNow = out.slotsAvailableNow + k.freeSlots := by
  have none : k.health.isOk = false → k.freeSlots = 0 := by
    intro sick
    simp [KeyState.freeSlots, sick]
  obtain ⟨_, _, _, visited⟩ := visit_fields host out k now avail
  rw [visited]
  cases ok : k.health.isOk with
  | true => rfl
  | false => rw [none ok]; rfl

end PoolSnapshot

/-- What the loop of the snapshot adds up and lists. -/
theorem snapshotFrom_out (host : Host) (now : Instant) (window : Duration) (out : PoolSnapshot)
    (ks : List KeyState) :
    (snapshotFrom host now window out ks).2.slotsAvailableNow =
        out.slotsAvailableNow + (ks.map fun k => (k.swept now window).freeSlots).sum ∧
      (snapshotFrom host now window out ks).2.keysHealthy =
        out.keysHealthy + ks.countP (fun k => (k.swept now window).health.isOk) ∧
      (snapshotFrom host now window out ks).2.keys =
        out.keys ++ ks.map fun k => (k.swept now window).toSnapshot host now (k.look now window).2 := by
  induction ks generalizing out with
  | nil => simp [snapshotFrom]
  | cons k ks ih =>
    obtain ⟨slots, healthy, keys⟩ :=
      ih (out.visit host (k.swept now window) now (k.look now window).2)
    rw [PoolSnapshot.visit_slots] at slots
    rw [PoolSnapshot.visit_keysHealthy] at healthy
    rw [PoolSnapshot.visit_keys] at keys
    refine ⟨?_, ?_, ?_⟩
    · rw [List.map_cons, List.sum_cons, ← Nat.add_assoc]
      exact slots
    · rw [List.countP_cons, Nat.add_comm (List.countP _ ks), ← Nat.add_assoc]
      exact healthy
    · rw [List.map_cons, List.append_cons]
      exact keys

namespace KeyState

theorem status_ok_iff (k : KeyState) (now : Instant) (window : Duration) :
    ((k.swept now window).status now (k.look now window).2).1 = .ok ↔
      (k.look now window).2 = .ok () := by
  constructor
  · intro shown
    unfold status at shown
    cases avail : (k.look now window).2 with
    | ok => rfl
    | error u =>
      rw [avail] at shown
      split at shown
      · split at shown <;> cases shown
      · cases shown
      · cases shown
  · intro free
    have same : k.swept now window = _ := availability_of_ok free
    have ok : (k.swept now window).health = .ok := by
      rw [swept, availability_health]
      exact (availability_ok_iff.mp free).1
    have unheld : (k.swept now window).holdUntil = none := by rw [same]
    simp [status, ok, unheld, free]

end KeyState

namespace Pool

/-- All keys are as a look at `now` leaves them, and no count of theirs is truncated. -/
structure Settled (now : Instant) (p : Pool) : Prop where
  settled : ∀ k ∈ p.keys, k.Settled now p.window
  sized : ∀ k ∈ p.keys, k.Sized

theorem sized_run (host : Host) (tokens : List String) (cfg : PoolConfig) (cs : List Call) :
    ∀ k ∈ ((new host tokens cfg).after cs).keys, k.Sized := by
  refine Runs.exec_invariant' (I := fun p : Pool => ∀ k ∈ p.keys, k.Sized) ?_ cs ?_
  · intro p c sized k' member
    obtain ⟨i, there⟩ := List.mem_iff_getElem?.mp member
    obtain ⟨k, here, change⟩ := p.step_key_inv there
    exact (sized k (List.mem_of_getElem? here)).change change
  · intro k member
    obtain ⟨i, here⟩ := List.mem_iff_getElem?.mp member
    obtain ⟨token, rfl⟩ := new_key host tokens cfg here
    exact ⟨Nat.zero_le _, le_max_right _ _, max_le cfg.defaultRps_le (by decide)⟩

section Draw

variable {p : Pool} {now : Instant}

theorem Settled.settle_key (settled : p.Settled now) (exclude : List Nat) (i : Nat) (k : KeyState)
    (here : p.keys[i]? = some k) : p.settle now exclude i k = k := by
  have still := settled.settled k (List.mem_of_getElem? here)
  unfold Pool.settle
  split
  · exact still.refresh
  · exact still

theorem Settled.settle (settled : p.Settled now) (exclude : List Nat) :
    p.keys.mapIdx (p.settle now exclude) = p.keys :=
  p.settled_eq_self now exclude (settled.settle_key exclude)

theorem Settled.leased (settled : p.Settled now) {exclude : List Nat} {i : Nat}
    (leased : p.leased (.tryAcquire now exclude) = some i) :
    ∃ k, p.keys[i]? = some k ∧ (k.availability now p.window).2 = .ok () ∧
      (p.step (.tryAcquire now exclude)).keys = p.keys.set i (k.grant now) := by
  have cases := p.tryAcquire_cases now exclude
  have settle := settled.settle exclude
  rw [leased_tryAcquire] at leased
  simp only [step, serve]
  generalize p.tryAcquire now exclude = result at cases leased
  cases cases with
  | leased j k here candidate free best =>
    obtain rfl : j = i := by simpa [Except.toOption, KeyState.lease] using leased
    have still := settled.settled k (List.mem_of_getElem? here)
    rw [still.refresh] at free
    have same := settled.settle_key exclude j k here
    exact ⟨k, here, free, by simp only [settle, same]⟩
  | waits u noneFree least healthy => simp [Except.toOption] at leased
  | unavailable summary sick => simp [Except.toOption] at leased

theorem Settled.refused (settled : p.Settled now) (refused : p.leased (.tryAcquire now []) = none) :
    ∀ k ∈ p.keys, k.freeSlots = 0 := by
  intro k member
  obtain ⟨i, here⟩ := List.mem_iff_getElem?.mp member
  have still := settled.settled k member
  by_contra some_
  have free := (still.free_iff (settled.sized k member)).mpr (Nat.pos_of_ne_zero some_)
  rw [← still.refresh] at free
  have candidate : (i, k.refresh now) ∈ p.candidates now [] :=
    (p.mem_candidates now []).mpr ⟨⟨k, here, rfl⟩, fun _ => List.not_mem_nil⟩
  have scored : (i, (k.refresh now).score) ∈ p.freeScores now [] :=
    (p.mem_freeScores now []).mpr ⟨_, candidate, free, rfl⟩
  have cases := p.tryAcquire_cases now []
  rw [leased_tryAcquire] at refused
  generalize p.tryAcquire now [] = result at cases refused
  cases cases with
  | leased j k' there candidate' free' best => cases refused
  | waits u noneFree least healthy =>
    rw [noneFree] at scored
    cases scored
  | unavailable summary sick => exact sick i _ candidate (KeyState.availability_ok_iff.mp free).1

theorem draws (now : Instant) :
    Slots.Draws step leased (.tryAcquire now []) (fun p => p.keys.map KeyState.freeSlots)
      (Settled now) where
  taken := by
    intro p i settled leased
    obtain ⟨k, here, free, keys⟩ := settled.leased leased
    have member := List.mem_of_getElem? here
    have fewer := (settled.settled k member).freeSlots_grant (settled.sized k member) free
    refine ⟨(k.grant now).freeSlots, ?_, ?_⟩
    · rw [List.getElem?_map, here, fewer]
      rfl
    · rw [keys, List.map_set]
  refused := by
    intro p settled refused n member
    obtain ⟨k, inside, rfl⟩ := List.mem_map.mp member
    exact settled.refused refused k inside
  keep := by
    intro p i settled leased
    obtain ⟨k, here, free, keys⟩ := settled.leased leased
    have member := List.mem_of_getElem? here
    have still := settled.settled k member
    have sized := settled.sized k member
    constructor
    · intro k' member'
      rw [keys] at member'
      rw [step_window]
      rcases List.mem_or_eq_of_mem_set member' with old | rfl
      · exact settled.settled k' old
      · exact still.grant p.window_pos free
    · intro k' member'
      rw [keys] at member'
      rcases List.mem_or_eq_of_mem_set member' with old | rfl
      · exact settled.sized k' old
      · have room := sized.room free
        rw [still.availability] at room
        exact sized.grant room

end Draw

section Status

variable (p : Pool) (now : Instant)

theorem snapshot_settled (sized : ∀ k ∈ p.keys, k.Sized) : (p.snapshot now).1.Settled now := by
  constructor
  · intro k member
    rw [snapshot_keys] at member
    obtain ⟨k₀, -, rfl⟩ := List.mem_map.mp member
    exact k₀.settled_swept now p.window
  · intro k member
    rw [snapshot_keys] at member
    obtain ⟨k₀, old, rfl⟩ := List.mem_map.mp member
    exact (sized k₀ old).tidied (.inr rfl)

/-- A call is refused as unavailable when no key is healthy, whatever it excludes. -/
theorem unavailable_iff (exclude : List Nat) :
    (∃ earliest summary, (p.tryAcquire now exclude).2 = .error (.unavailable earliest summary)) ↔
      ∀ k ∈ p.keys, ¬ k.Healthy now := by
  have cases := p.tryAcquire_cases now exclude
  generalize p.tryAcquire now exclude = result at cases
  constructor
  · rintro ⟨earliest, summary, unavailable⟩ k member
    obtain ⟨i, here⟩ := List.mem_iff_getElem?.mp member
    cases cases with
    | leased j k' there candidate free best => cases unavailable
    | waits u noneFree least healthy => cases unavailable
    | unavailable summary' sick => exact p.parked_of_sick now exclude sick here
  · intro sick
    cases cases with
    | leased i k here candidate free best =>
      have healthy := (k.refresh_ok_iff now).mp (KeyState.availability_ok_iff.mp free).1
      exact absurd healthy (sick k (List.mem_of_getElem? here))
    | waits u noneFree least healthy =>
      obtain ⟨i, k, member, ok⟩ := healthy
      obtain ⟨⟨k₀, here, rfl⟩, -⟩ := (p.mem_candidates now exclude).mp member
      exact absurd ((k₀.refresh_ok_iff now).mp ok) (sick k₀ (List.mem_of_getElem? here))
    | unavailable summary sick' => exact ⟨_, _, rfl⟩

/-- As many calls, at the instant of the snapshot `out`, as it shows slots. -/
def slotCalls (now : Instant) (out : PoolSnapshot) : List Call :=
  List.replicate out.slotsAvailableNow (.tryAcquire now [])

/-- The snapshot `out` tells what the pool `q` it leaves behind does when asked for keys at once. -/
structure StatusAgrees (now : Instant) (q : Pool) (out : PoolSnapshot) : Prop where
  granted : (q.turns (slotCalls now out)).length = out.slotsAvailableNow
  refused : (q.after (slotCalls now out)).leased (.tryAcquire now []) = none
  ok : ∀ (i : Nat) (shown : KeySnapshot), out.keys[i]? = some shown →
    (shown.state = .ok ↔ i ∈ q.turns (slotCalls now out))
  healthy : ∀ exclude, out.keysHealthy = 0 ↔
    ∃ earliest summary, (q.tryAcquire now exclude).2 = .error (.unavailable earliest summary)

theorem snapshot_agrees (sized : ∀ k ∈ p.keys, k.Sized) :
    StatusAgrees now (p.snapshot now).1 (p.snapshot now).2 := by
  have keys := p.snapshot_keys now
  obtain ⟨slots, healthy, shown⟩ := snapshotFrom_out p.host now p.window
    { now := p.host.fmtInstant now, keysTotal := p.keys.length } p.keys
  have settled := p.snapshot_settled now sized
  have total : ((p.snapshot now).1.keys.map KeyState.freeSlots).sum =
      (p.snapshot now).2.slotsAvailableNow := by
    rw [keys, List.map_map]
    exact (Nat.zero_add _).symm.trans slots.symm
  obtain ⟨granted, counts, refused⟩ := (draws now).drained settled
  simp only [total] at granted counts refused
  refine ⟨granted, refused, ?_, ?_⟩
  · intro i s there
    have there' : (p.keys.map fun k => (k.swept now p.window).toSnapshot p.host now
        (k.look now p.window).2)[i]? = some s := by
      rw [← there]
      exact congrArg (·[i]?) (shown.trans (List.nil_append _)).symm
    rw [List.getElem?_map] at there'
    obtain ⟨k, here, rfl⟩ := Option.map_eq_some_iff.mp there'
    have member := List.mem_of_getElem? here
    have there'' : (p.snapshot now).1.keys[i]? = some (k.swept now p.window) := by
      rw [keys, List.getElem?_map, here]
      rfl
    have still := k.settled_swept now p.window
    have fits : (k.swept now p.window).Sized := (sized k member).tidied (.inr rfl)
    have count := counts i (k.swept now p.window).freeSlots (by
      rw [List.getElem?_map, there'']
      rfl)
    have turn : i ∈ (p.snapshot now).1.turns (slotCalls now (p.snapshot now).2) ↔
        0 < (k.swept now p.window).freeSlots := by
      rw [← count]
      exact List.count_pos_iff.symm
    have again : (k.swept now p.window).look now p.window = k.look now p.window :=
      KeyState.look_of_tidied (.inr rfl) le_rfl
    rw [turn, ← still.free_iff fits]
    have looked : ((k.swept now p.window).availability now p.window).2 =
        (k.look now p.window).2 := by
      rw [← again, KeyState.look, still.refresh]
    rw [looked, ← k.status_ok_iff now p.window]
    exact Iff.rfl
  · intro exclude
    rw [unavailable_iff]
    have count : (p.snapshot now).2.keysHealthy =
        p.keys.countP fun k => (k.swept now p.window).health.isOk :=
      healthy.trans (Nat.zero_add _)
    rw [count, List.countP_eq_zero, keys, List.forall_mem_map]
    refine forall₂_congr fun k _ => not_congr ?_
    rw [Health.isOk_iff, KeyState.swept]
    have still := (k.settled_swept now p.window).refresh
    rw [← KeyState.refresh_ok_iff]
    exact (iff_of_eq (congrArg (·.health = Health.ok) still)).symm

/-- In every state that a run can lead to, and at any instant: the slots shown are the leases to be had
    at once, a key is shown as `ok` when it has one of them, and no key is shown as healthy when none
    is usable. -/
theorem status_agrees (host : Host) (tokens : List String) (cfg : PoolConfig) (cs : List Call)
    (now : Instant) :
    StatusAgrees now (((new host tokens cfg).after cs).snapshot now).1
      (((new host tokens cfg).after cs).snapshot now).2 :=
  snapshot_agrees _ now (sized_run host tokens cfg cs)

end Status

end Pool

end BraveRotator
