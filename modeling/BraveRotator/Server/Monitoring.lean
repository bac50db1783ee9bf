import BraveRotator.Config.Listen
import BraveRotator.Model.Handlers
import BraveRotator.Pool.Slots
import BraveRotator.Pool.Stats

namespace BraveRotator

open Net

/-- The report warns of the key. -/
def isReported (shown : KeySnapshot) : Bool := shown.state = .disabled || shown.state = .exhausted

namespace KeyState

variable (k : KeyState) (now : Instant) (window : Duration)

theorem swept_ok_iff : (k.swept now window).health.isOk = true ↔ k.Healthy now := by
  rw [swept, availability_health, Health.isOk_iff, refresh_ok_iff]

theorem look_of_parked (parked : ¬ k.Healthy now) :
    ∃ u, k.health.parkedUntil? = some u ∧ now < u ∧ k.look now window = (k, .error u) := by
  unfold Healthy at parked
  obtain ⟨u, until_, past⟩ : ∃ u, k.health.parkedUntil? = some u ∧ ¬ u ≤ now := by
    by_contra none
    apply parked
    intro u until_
    by_contra past
    exact none ⟨u, until_, past⟩
  refine ⟨u, until_, Nat.lt_of_not_le past, ?_⟩
  rw [look, refresh_of_parked k now parked]
  exact k.availability_of_parked now window until_

/-- What the report says of a parked key. -/
def parkedLine (host : Host) : String :=
  let line := fun (state reason : String) (u : Instant) =>
    s!"key {k.label} is {state}: {reason}; " ++
      s!"retrying at {host.fmtInstant u} (in {host.fmtDur (saturatingDurationSince u now)})"
  match k.health with
  | .disabled u reason => line "DISABLED" reason u
  | .exhausted u => line "EXHAUSTED" "monthly quota used up" u
  | .ok => ""

theorem status_of_ok (ok : k.health = .ok) (avail : Except Instant Unit) :
    (k.status now avail).1 ≠ .disabled ∧ (k.status now avail).1 ≠ .exhausted := by
  unfold status
  rw [ok]
  dsimp only
  split
  · exact ⟨nofun, nofun⟩
  · cases avail <;> exact ⟨nofun, nofun⟩

theorem state_toSnapshot (host : Host) (avail : Except Instant Unit) :
    (k.toSnapshot host now avail).state = (k.status now avail).1 := rfl

theorem reported_iff (host : Host) :
    isReported ((k.swept now window).toSnapshot host now (k.look now window).2) = true ↔
      ¬ k.Healthy now := by
  rw [← k.swept_ok_iff now window, isReported]
  rw [state_toSnapshot]
  cases health : (k.swept now window).health with
  | ok =>
    obtain ⟨able, left⟩ := (k.swept now window).status_of_ok now health (k.look now window).2
    simp [able, left, Health.isOk]
  | disabled u reason => simp [status, health, Health.isOk]
  | exhausted u => simp [status, health, Health.isOk]

theorem warning_of_parked (host : Host) (parked : ¬ k.Healthy now) :
    ((k.swept now window).toSnapshot host now (k.look now window).2).warning = k.parkedLine now host := by
  obtain ⟨u, until_, future, looked⟩ := k.look_of_parked now window parked
  have swept : k.swept now window = k := congrArg Prod.fst looked
  have disabled : "disabled".toUpper = "DISABLED" := by decide +kernel
  have exhausted : "exhausted".toUpper = "EXHAUSTED" := by decide +kernel
  rw [swept, looked]
  unfold KeySnapshot.warning toSnapshot status parkedLine
  cases health : k.health with
  | ok =>
    rw [health] at until_
    cases until_
  | disabled u' reason =>
    simp only [KeyStatus.text, disabled, Option.map_some, Option.getD_some]
  | exhausted u' =>
    simp only [KeyStatus.text, exhausted, Option.map_some, Option.getD_some]

end KeyState

namespace Pool

variable (p : Pool) (now : Instant)

theorem after_host (cs : List Call) : (p.after cs).host = p.host :=
  Runs.exec_invariant' (I := fun q : Pool => q.host = p.host)
    (fun q c same => (q.step_host c).trans same) cs rfl

theorem visit_keysTotal (host : Host) (out : PoolSnapshot) (k : KeyState) (avail : Except Instant Unit) :
    (out.visit host k now avail).keysTotal = out.keysTotal := by
  unfold PoolSnapshot.visit
  cases k.health.isOk <;> cases k.monthUnlimited <;> rfl

theorem snapshotFrom_keysTotal (host : Host) (window : Duration) (out : PoolSnapshot)
    (ks : List KeyState) : (snapshotFrom host now window out ks).2.keysTotal = out.keysTotal := by
  induction ks generalizing out with
  | nil => rfl
  | cons k ks ih =>
    rw [snapshotFrom]
    exact (ih _).trans (visit_keysTotal ..)

theorem snapshot_out :
    (p.snapshot now).2.keysTotal = p.keys.length ∧
      (p.snapshot now).2.keysHealthy = p.keys.countP (fun k => decide (k.Healthy now)) ∧
      (p.snapshot now).2.keys =
        p.keys.map fun k => (k.swept now p.window).toSnapshot p.host now (k.look now p.window).2 := by
  obtain ⟨-, healthy, keys⟩ := snapshotFrom_out p.host now p.window
    { now := p.host.fmtInstant now, keysTotal := p.keys.length } p.keys
  have count : p.keys.countP (fun k => (k.swept now p.window).health.isOk) =
      p.keys.countP fun k => decide (k.Healthy now) := by
    apply List.countP_congr
    intro k _
    rw [k.swept_ok_iff now p.window, decide_eq_true_eq]
  refine ⟨?_, ?_, ?_⟩
  · exact snapshotFrom_keysTotal now p.host p.window _ p.keys
  · exact healthy.trans ((Nat.zero_add _).trans count)
  · exact keys

/-- The lines of a report after its first. -/
theorem report_warnings :
    (reportedKeys (p.snapshot now).2).map KeySnapshot.warning =
      (p.keys.filter fun k => !decide (k.Healthy now)).map fun k => k.parkedLine now p.host := by
  obtain ⟨-, -, keys⟩ := p.snapshot_out now
  have reported : reportedKeys (p.snapshot now).2 = (p.snapshot now).2.keys.filter isReported := rfl
  rw [reported, keys]
  induction p.keys with
  | nil => rfl
  | cons k ks ih =>
    rw [List.map_cons, List.filter_cons, List.filter_cons]
    by_cases healthy : k.Healthy now
    · have quiet := mt (k.reported_iff now p.window p.host).mp (not_not_intro healthy)
      rw [if_neg quiet, if_neg (by simpa using healthy)]
      exact ih
    · have loud := (k.reported_iff now p.window p.host).mpr healthy
      rw [if_pos loud, if_pos (by simpa using healthy), List.map_cons, List.map_cons, ih,
        k.warning_of_parked now p.window p.host healthy]

theorem health_reply : (health p now).2.keysHealthy = (p.snapshot now).2.keysHealthy ∧
    (health p now).2.keysTotal = (p.snapshot now).2.keysTotal ∧
    (health p now).2.code = if 0 < (p.snapshot now).2.keysHealthy then 200 else 503 := by
  refine ⟨rfl, rfl, ?_⟩
  unfold health
  simp only [decide_eq_true_eq]

theorem health_code :
    ((health p now).2.code = 200 ↔ ∃ k ∈ p.keys, k.Healthy now) ∧
      ((health p now).2.code = 503 ↔ (p.snapshot now).2.keysHealthy = 0) := by
  obtain ⟨-, healthy, -⟩ := p.snapshot_out now
  obtain ⟨-, -, code⟩ := p.health_reply now
  have some : 0 < (p.snapshot now).2.keysHealthy ↔ ∃ k ∈ p.keys, k.Healthy now := by
    rw [healthy, List.countP_pos_iff]
    simp only [decide_eq_true_eq]
  rw [code, ← some]
  constructor
  · split <;> simp_all
  · split <;> omega

/-- The health page, the report and the scheduler agree on which keys are usable. -/
theorem monitoring_agrees (host : Host) (tokens : List String) (cfg : PoolConfig) (cs : List Call)
    (now : Instant) :
    let p := (new host tokens cfg).after cs
    let warnings := (p.keys.filter fun k => !decide (k.Healthy now)).map fun k => k.parkedLine now host
    (health p now).2.keysTotal = tokens.length ∧
      (health p now).2.keysHealthy = p.keys.countP (fun k => decide (k.Healthy now)) ∧
      ((health p now).2.code = 200 ↔ ∃ k ∈ p.keys, k.Healthy now) ∧
      ((health p now).2.code = 503 ↔ ∀ exclude, ∃ earliest summary,
        ((health p now).1.tryAcquire now exclude).2 = .error (.unavailable earliest summary)) ∧
      report (p.snapshot now).2 = reportLine (p.snapshot now).2 :: warnings ∧
      (health p now).2.keysHealthy + warnings.length = (health p now).2.keysTotal := by
  intro p warnings
  obtain ⟨total, healthy, -⟩ := p.snapshot_out now
  obtain ⟨shownHealthy, shownTotal, -⟩ := p.health_reply now
  obtain ⟨usable, degraded⟩ := p.health_code now
  have size : p.keys.length = tokens.length := by
    rw [show p.keys.length = (new host tokens cfg).keys.length from after_length _ cs]
    simp [new]
  have own : p.host = host := (new host tokens cfg).after_host cs
  have agrees := p.snapshot_agrees now (sized_run host tokens cfg cs)
  refine ⟨?_, ?_, usable, ?_, ?_, ?_⟩
  · rw [shownTotal, total, size]
  · rw [shownHealthy, healthy]
  · rw [degraded]
    constructor
    · exact fun none exclude => (agrees.healthy exclude).mp none
    · exact fun refused => (agrees.healthy []).mpr (refused [])
  · have lines := p.report_warnings now
    rw [own] at lines
    exact congrArg (reportLine (p.snapshot now).2 :: ·) lines
  · rw [shownTotal, shownHealthy, total, healthy, List.length_map, ← List.countP_eq_length_filter]
    have split := List.length_eq_countP_add_countP (fun k => decide (k.Healthy now)) (l := p.keys)
    simpa using split.symm

end Pool

section Healthcheck

/-- The request is taken and answered with the status code. -/
def Peer.Answers (peer : Peer) (code : Nat) : Prop :=
  peer.accepts healthRequest = true ∧ ∃ version ∈ ["HTTP/1.0", "HTTP/1.1"], ∃ rest,
    peer.sends = Utf8.encode (version ++ " " ++ toString code).toList ++ rest

theorem isPrefixOf_append {a b : List Char} (same : a.length = b.length) (more : List Char) :
    a.isPrefixOf (b ++ more) = decide (a = b) := by
  rw [Bool.eq_iff_iff, List.isPrefixOf_iff_prefix, decide_eq_true_eq]
  constructor
  · intro front
    exact (List.prefix_of_prefix_length_le front (List.prefix_append b more) same.le).eq_of_length same
  · intro equal
    rw [equal]
    exact List.prefix_append b more

theorem askHealth_answered {connectTimeout : Network} {target : SocketAddr} {peer : Peer} {code : Nat}
    (connects : connectTimeout target (.fromSecs 2) = some peer) (answers : peer.Answers code)
    (known : code = 200 ∨ code = 503) :
    askHealth connectTimeout target = if code = 200 then 0 else 1 := by
  obtain ⟨accepts, version, spoken, rest, sends⟩ := answers
  have lines : ∀ version' ∈ ["HTTP/1.0", "HTTP/1.1"], ∀ code' ∈ [200, 503],
      "HTTP/1.1 200".toList.length = (version' ++ " " ++ toString code').toList.length ∧
      "HTTP/1.0 200".toList.length = (version' ++ " " ++ toString code').toList.length ∧
      (decide ("HTTP/1.1 200".toList = (version' ++ " " ++ toString code').toList) ||
        decide ("HTTP/1.0 200".toList = (version' ++ " " ++ toString code').toList)) =
        decide (code' = 200) := by decide +kernel
  obtain ⟨long, long', told⟩ := lines version spoken code (by simpa using known)
  unfold askHealth
  rw [connects]
  dsimp only
  rw [accepts, sends, Utf8.lossy_encode_append, isPrefixOf_append long, isPrefixOf_append long', told]
  simp

/-- The health check of a container tells whether the server it started can use any of its keys. -/
theorem healthcheck_tells (parseUri : List Char → Except String Uri) (debug : String → String)
    (env : Env) (cfg : Config) (ok : Config.fromEnv (.std parseUri debug) env = .ok cfg)
    (plain : Config.ListensPlainly env) (p : Pool) (now : Instant) (connectTimeout : Network)
    (serves : ∀ addr : SocketAddr, addr.port = cfg.listen.port →
      addr.ip = (if cfg.listen.ip.isUnspecified then loopback cfg.listen.ip else cfg.listen.ip) →
      ∃ peer, connectTimeout addr (.fromSecs 2) = some peer ∧ peer.Answers (health p now).2.code) :
    (healthcheck connectTimeout env).exitCode = if ∃ k ∈ p.keys, k.Healthy now then 0 else 1 := by
  have parsed := Config.parse_of_parseEnv (Config.fromEnv_ok ok).2.1
  rw [Config.trim_envOr plain] at parsed
  obtain ⟨target, found, port, ip⟩ := Config.healthTarget_of_parse parsed
  obtain ⟨peer, connects, answers⟩ := serves target port ip
  obtain ⟨-, -, code⟩ := p.health_reply now
  have known : (health p now).2.code = 200 ∨ (health p now).2.code = 503 := by
    rw [code]
    exact ite_eq_or_eq ..
  have asked := askHealth_answered connects answers known
  unfold healthcheck
  rw [found]
  simp only [asked, (p.health_code now).1]

def wellPeer : Peer :=
  { accepts := fun _ => true
    sends := Utf8.encode ("HTTP/1.0" ++ " " ++ toString 200).toList ++ Utf8.encode " OK\r\n\r\n".toList }

theorem fresh_server_told :
    (healthcheck (fun _ _ => some wellPeer) (Config.listenEnv "[::]:9090")).exitCode = 0 := by
  obtain ⟨cfg, ok⟩ := Config.ok_of_toBool
    (by decide +kernel : (Config.fromEnv Config.startHost (Config.listenEnv "[::]:9090")).toBool = true)
  have plain : Config.ListensPlainly (Config.listenEnv "[::]:9090") := by
    intro raw value
    cases value
    decide
  have well : (health (.ofTests ["first"] []) 0).2.code = 200 := by decide +kernel
  have told := healthcheck_tells _ _ _ cfg ok plain (.ofTests ["first"] []) 0 (fun _ _ => some wellPeer)
  rw [told]
  · exact if_pos (by decide)
  · intro addr _ _
    rw [well]
    exact ⟨wellPeer, rfl, rfl, "HTTP/1.0", List.mem_cons_self, _, rfl⟩

end Healthcheck

end BraveRotator
