import BraveRotator.Key.Digest
import BraveRotator.Model.Calls
import BraveRotator.Model.Turnstile

namespace BraveRotator

section Rekey

variable (f : String → String)

/-- The same key with another token. Its label stays. -/
def KeyState.rekey (k : KeyState) : KeyState := { k with token := f k.token }

def Lease.rekey (lease : Lease) : Lease := { lease with token := f lease.token }

def Pool.rekey (p : Pool) : Pool := { p with keys := p.keys.map (KeyState.rekey f) }

end Rekey

namespace KeyState

variable (f : String → String) (k : KeyState) (now : Instant)

theorem rekey_refresh : (k.rekey f).refresh now = (k.refresh now).rekey f := by
  unfold refresh rekey
  dsimp only
  split
  · split <;> rfl
  · split <;> rfl
  · rfl

theorem rekey_availability (window : Duration) :
    (k.rekey f).availability now window =
      ((k.availability now window).1.rekey f, (k.availability now window).2) := by
  unfold availability rekey
  dsimp only
  split
  · rfl
  · rfl
  · split <;> rfl

theorem rekey_grant : (k.rekey f).grant now = (k.grant now).rekey f := rfl

theorem rekey_fail (what : String) : (k.rekey f).fail now what = (k.fail now what).rekey f := by
  unfold fail rekey
  dsimp only
  split <;> rfl

theorem rekey_recordTransport (err : String) :
    (k.rekey f).recordTransport now err = (k.recordTransport now err).rekey f :=
  rekey_fail f { k with
    stats := { k.stats with
      transportErrors := k.stats.transportErrors + 1, lastStatus := none, lastError := some err } } now _

theorem rekey_recordServerError (status : Nat) (detail : String) :
    (k.rekey f).recordServerError now status detail =
      (k.recordServerError now status detail).rekey f :=
  rekey_fail f { k with
    stats := { k.stats with
      server5xx := k.stats.server5xx + 1, lastError := some s!"HTTP {status}{detail}" } } now _

theorem rekey_noteResponse (status : Nat) (rl : Option RateLimitInfo) :
    (k.rekey f).noteResponse now status rl = (k.noteResponse now status rl).rekey f := by
  unfold noteResponse
  cases rl with
  | none => rfl
  | some rl =>
    dsimp only
    rw [learnLimits_eq, learnLimits_eq]
    rfl

theorem rekey_recordSuccess (rl : Option RateLimitInfo) :
    (k.rekey f).recordSuccess now rl = (k.recordSuccess now rl).rekey f := by
  have noted : (k.rekey f).noteSuccess now = (k.noteSuccess now).rekey f := by
    unfold noteSuccess rekey
    dsimp only
    split <;> rfl
  have cap : ((k.noteSuccess now).rekey f).overrideCapExhausted =
      (k.noteSuccess now).overrideCapExhausted := rfl
  unfold recordSuccess
  rw [noted]
  dsimp only
  rw [cap]
  split
  · rfl
  · split <;> rfl

theorem rekey_recordTooMany (rl : Option RateLimitInfo) (detail : String) :
    (k.rekey f).recordTooMany now rl detail = (k.recordTooMany now rl detail).rekey f := by
  unfold recordTooMany rekey
  cases rl with
  | some r =>
    dsimp only
    split <;> rfl
  | none =>
    dsimp only
    split <;> rfl

/-- What a key makes of an outcome does not depend on its token. -/
theorem rekey_digest (o : Outcome) :
    (k.rekey f).digest now o = ((k.digest now o).1.rekey f, (k.digest now o).2) := by
  cases o with
  | transport err => exact congrArg (·, _) (rekey_recordTransport f k now err)
  | response status rl bodySnippet =>
    simp only [digest]
    rw [rekey_noteResponse]
    generalize k.noteResponse now status rl = k
    split
    · rw [rekey_recordSuccess]
    split
    · rw [rekey_recordTooMany]
    split
    · rfl
    split
    · rfl
    split
    · rw [rekey_recordServerError]
    · rfl

end KeyState

section Lists

variable (f : String → String) (now : Instant) (window : Duration)

theorem pickFrom_rekey (exclude : List Nat) (skipExcluded : Bool) (i : Nat) (acc : Picked)
    (ks : List KeyState) :
    pickFrom now window exclude skipExcluded i acc (ks.map (KeyState.rekey f)) =
      ((pickFrom now window exclude skipExcluded i acc ks).1.map (KeyState.rekey f),
        (pickFrom now window exclude skipExcluded i acc ks).2) := by
  induction ks generalizing i acc with
  | nil => rfl
  | cons k ks ih =>
    have visit : acc.visit i (k.rekey f) now window =
        ((acc.visit i k now window).1.rekey f, (acc.visit i k now window).2) := by
      unfold Picked.visit
      rw [KeyState.rekey_availability]
      dsimp only
      split <;> rfl
    unfold pickFrom
    rw [List.map_cons]
    dsimp only
    split
    · rw [ih]
      rfl
    · rw [visit, ih]
      rfl

theorem snapshotFrom_rekey (host : Host) (out : PoolSnapshot) (ks : List KeyState) :
    snapshotFrom host now window out (ks.map (KeyState.rekey f)) =
      ((snapshotFrom host now window out ks).1.map (KeyState.rekey f),
        (snapshotFrom host now window out ks).2) := by
  induction ks generalizing out with
  | nil => rfl
  | cons k ks ih =>
    have visit : ∀ k avail, out.visit host (k.rekey f) now avail = out.visit host k now avail :=
      fun _ _ => rfl
    simp only [List.map_cons, snapshotFrom, KeyState.rekey_refresh, KeyState.rekey_availability, visit, ih]

end Lists

namespace Pool

variable (f : String → String) (p : Pool) (now : Instant)

theorem rekey_pick (exclude : List Nat) (skipExcluded : Bool) :
    (p.rekey f).pick now exclude skipExcluded =
      ((p.pick now exclude skipExcluded).1.rekey f, (p.pick now exclude skipExcluded).2) := by
  have picked := pickFrom_rekey f now p.window exclude skipExcluded 0 {} p.keys
  unfold pick
  show ({ p with keys := (pickFrom now p.window _ _ 0 {} (p.keys.map _)).1 },
    (pickFrom now p.window _ _ 0 {} (p.keys.map _)).2) = _
  rw [picked]
  rfl

theorem rekey_choose (exclude : List Nat) :
    (p.rekey f).choose now exclude = ((p.choose now exclude).1.rekey f, (p.choose now exclude).2) := by
  have refreshed : ({ p.rekey f with keys := (p.rekey f).keys.map (KeyState.refresh · now) } : Pool) =
      ({ p with keys := p.keys.map (KeyState.refresh · now) } : Pool).rekey f := by
    have keys : (p.keys.map (KeyState.rekey f)).map (KeyState.refresh · now) =
        (p.keys.map (KeyState.refresh · now)).map (KeyState.rekey f) := by
      rw [List.map_map, List.map_map]
      exact List.map_congr_left fun k _ => k.rekey_refresh f now
    exact congrArg (fun keys => ({ p with keys } : Pool)) keys
  unfold choose
  rw [refreshed]
  dsimp only
  rw [rekey_pick]
  dsimp only
  split
  · rw [rekey_pick]
  · rfl

theorem rekey_set (i : Nat) (k : KeyState) :
    ({ p.rekey f with keys := (p.rekey f).keys.set i (k.rekey f) } : Pool) =
      ({ p with keys := p.keys.set i k } : Pool).rekey f :=
  congrArg (fun keys => ({ p with keys } : Pool)) List.map_set.symm

theorem rekey_keys (i : Nat) : (p.rekey f).keys[i]? = p.keys[i]?.map (KeyState.rekey f) :=
  List.getElem?_map

theorem rekey_tryAcquire (exclude : List Nat) :
    (p.rekey f).tryAcquire now exclude =
      ((p.tryAcquire now exclude).1.rekey f, (p.tryAcquire now exclude).2.map (Lease.rekey f)) := by
  have lines : ∀ q : Pool, (q.rekey f).keys.map (KeyState.healthLine (q.rekey f).host) =
      q.keys.map (KeyState.healthLine q.host) := by
    intro q
    show (q.keys.map _).map _ = _
    rw [List.map_map]
    rfl
  unfold tryAcquire
  rw [rekey_choose]
  generalize p.choose now exclude = chosen
  obtain ⟨q, result⟩ := chosen
  dsimp only
  split
  · rename_i i score best
    rw [rekey_keys]
    cases q.keys[i]? with
    | none => rfl
    | some k =>
      simp only [Option.map_some, KeyState.rekey_grant, rekey_set]
      rfl
  · split
    · rfl
    · rw [lines]
      rfl

theorem rekey_record (i : Nat) (o : Outcome) :
    (p.rekey f).record now i o = ((p.record now i o).1.rekey f, (p.record now i o).2) := by
  unfold record
  rw [rekey_keys]
  cases p.keys[i]? with
  | none => rfl
  | some k => simp only [Option.map_some, KeyState.rekey_digest, rekey_set]

theorem rekey_snapshot :
    (p.rekey f).snapshot now = ((p.snapshot now).1.rekey f, (p.snapshot now).2) := by
  have total : (p.rekey f).keys.length = p.keys.length := List.length_map _
  unfold snapshot
  rw [total]
  let start : PoolSnapshot := { now := p.host.fmtInstant now, keysTotal := p.keys.length }
  show ({ p with keys := (snapshotFrom p.host now p.window start (p.keys.map _)).1 },
    (snapshotFrom p.host now p.window start (p.keys.map _)).2) = _
  rw [snapshotFrom_rekey]
  rfl

/-- What a turn in `acquire` says, for other tokens. -/
def rekeyTurn : Turnstile.Turn (Except AcquireError Lease) → Turnstile.Turn (Except AcquireError Lease)
  | .sleeps u => .sleeps u
  | .ends result => .ends (result.map (Lease.rekey f))

theorem rekey_acquireTurn (c : AcquireCall) :
    (p.rekey f).acquireTurn now c =
      ((p.acquireTurn now c).1.rekey f, rekeyTurn f (p.acquireTurn now c).2) := by
  unfold acquireTurn
  rw [rekey_tryAcquire]
  rcases p.tryAcquire now c.request with ⟨q, (u | ⟨earliest, summary⟩) | lease⟩
  · dsimp only [Except.map]
    split <;> rfl
  · rfl
  · rfl

theorem rekey_step (c : Call) : (p.rekey f).step c = (p.step c).rekey f := by
  unfold step serve
  cases c with
  | tryAcquire now exclude => simp only [rekey_tryAcquire]
  | record now i o => simp only [rekey_record]
  | snapshot now => simp only [rekey_snapshot]

theorem rekey_new (host : Host) (tokens : List String) (cfg : PoolConfig)
    (tails : ∀ key, (f key).toList.reverse.take 4 = key.toList.reverse.take 4) :
    new host (tokens.map f) cfg = (new host tokens cfg).rekey f := by
  have key : ∀ i token rps cap,
      KeyState.new i (f token) rps cap = (KeyState.new i token rps cap).rekey f := by
    intro i token rps cap
    unfold KeyState.new
    rw [tails]
    rfl
  have keys : ∀ caps : Nat → Option Nat,
      (tokens.map f).mapIdx (fun i token => KeyState.new i token cfg.defaultRps (caps i)) =
        (tokens.mapIdx fun i token => KeyState.new i token cfg.defaultRps (caps i)).map
          (KeyState.rekey f) := by
    intro caps
    apply List.ext_getElem?
    intro i
    simp only [List.getElem?_mapIdx, List.getElem?_map, Option.map_map]
    congr 1
    funext token
    exact key i token cfg.defaultRps (caps i)
  exact congrArg (fun keys => ({ keys, cfg, host } : Pool)) (keys _)

end Pool

end BraveRotator
