import BraveRotator.Config.FromEnv
import BraveRotator.Model.Healthcheck

namespace BraveRotator

open Net

def loopback (ip : IpAddr) : IpAddr := if ip.isIpv4 then .v4 0x7F000001 else .v6 1

/-- The check connects to where a server that listens on the address can be reached. -/
def ProbesListener (listen : SocketAddr) (checkup : Checkup) : Prop :=
  ∃ target, checkup.target = some target ∧ target.port = listen.port ∧
    target.ip = if listen.ip.isUnspecified then loopback listen.ip else listen.ip

namespace Config

/-- `LISTEN_ADDR` is not set, or to something without blanks around it. -/
def ListensPlainly (env : Env) : Prop :=
  ∀ raw, env "LISTEN_ADDR" = some raw → raw ≠ "" ∧ Text.trim raw.toList = raw.toList

theorem isWhitespace_of_isAddressChar {c : Char} (char : IsAddressChar c) :
    Text.isWhitespace c = false := by
  rcases char with digit | sign
  · have range : 48 ≤ c.toNat ∧ c.toNat ≤ 122 := by
      unfold Reader.toDigit at digit
      split at digit
      · omega
      · split at digit
        · omega
        · split at digit
          · omega
          · exact absurd rfl digit
    unfold Text.isWhitespace
    rw [decide_eq_false_iff_not]
    omega
  · have signs : ['.', ':', '[', ']', '%'].all (!Text.isWhitespace ·) = true := by decide
    simpa using List.all_eq_true.mp signs c sign

theorem plain_of_parse {s : List Char} {addr : SocketAddr} (ok : SocketAddr.parse s = .ok addr) :
    s ≠ [] ∧ Text.trim s = s := by
  have chars := SocketAddr.chars_of_parse ok
  refine ⟨?_, Text.trim_eq_self fun c member => isWhitespace_of_isAddressChar (chars c member)⟩
  rintro rfl
  rw [SocketAddr.parse_nil] at ok
  cases ok

theorem healthTarget_of_parse {listen : String} {addr : SocketAddr}
    (ok : SocketAddr.parse listen.toList = .ok addr) :
    ∃ target, healthTarget listen = some target ∧ target.port = addr.port ∧
      target.ip = if addr.ip.isUnspecified then loopback addr.ip else addr.ip := by
  have new : ∀ ip port, (SocketAddr.new ip port).ip = ip ∧ (SocketAddr.new ip port).port = port := by
    intro ip port
    cases ip <;> exact ⟨rfl, rfl⟩
  unfold healthTarget
  rw [ok]
  refine ⟨_, rfl, (new _ _).2, (new _ _).1.trans ?_⟩
  unfold loopback SocketAddr.isIpv4
  split
  · split
    · decide +kernel
    · decide +kernel
  · rw [IpAddr.parse_display]
    rfl

theorem parse_of_healthTarget {listen : String} {target : SocketAddr}
    (found : healthTarget listen = some target) :
    ∃ addr, SocketAddr.parse listen.toList = .ok addr := by
  unfold healthTarget at found
  split at found
  · cases found
  · rename_i addr ok
    exact ⟨addr, ok⟩

theorem healthcheck_target (connectTimeout : Network) (env : Env) :
    (healthcheck connectTimeout env).target =
      healthTarget ((env "LISTEN_ADDR").getD "0.0.0.0:8080") := by
  unfold healthcheck
  cases healthTarget ((env "LISTEN_ADDR").getD "0.0.0.0:8080") <;> rfl

theorem parse_of_parseEnv {α : Type} {host : EnvHost} {env : Env}
    {parse : List Char → Except String α} {name default : String} {a : α}
    (ok : parseEnv host env parse name default = .ok a) :
    parse (Text.trim (envOr env name default).toList) = .ok a := by
  unfold parseEnv at ok
  dsimp only at ok
  cases parsed : parse (Text.trim (envOr env name default).toList) with
  | error e =>
    rw [parsed] at ok
    cases ok
  | ok b =>
    rw [parsed] at ok
    cases ok
    rfl

/-- Both read the same text, if it is plain. -/
theorem trim_envOr {env : Env} (plain : ListensPlainly env) :
    Text.trim (envOr env "LISTEN_ADDR" "0.0.0.0:8080").toList =
      ((env "LISTEN_ADDR").getD "0.0.0.0:8080").toList := by
  unfold envOr
  cases value : env "LISTEN_ADDR" with
  | none => decide
  | some raw =>
    obtain ⟨some, trimmed⟩ := plain raw value
    have solid : isBlank raw = false := by
      unfold isBlank
      rw [trimmed]
      simpa using some
    rw [Option.filter_some, solid]
    exact trimmed

/-- Wherever the server listens, the health check asks there, exactly when `LISTEN_ADDR` is plain. -/
theorem healthcheck_probes_iff (parseUri : List Char → Except String Uri) (debug : String → String)
    (env : Env) (cfg : Config) (connectTimeout : Network)
    (ok : fromEnv (.std parseUri debug) env = .ok cfg) :
    ProbesListener cfg.listen (healthcheck connectTimeout env) ↔ ListensPlainly env := by
  unfold ProbesListener
  rw [healthcheck_target]
  constructor
  · rintro ⟨target, found, -⟩ raw value
    obtain ⟨addr, parsed⟩ := parse_of_healthTarget found
    rw [value, Option.getD_some] at parsed
    obtain ⟨some, trimmed⟩ := plain_of_parse parsed
    refine ⟨?_, trimmed⟩
    rintro rfl
    exact some rfl
  · intro plain
    have parsed := parse_of_parseEnv (fromEnv_ok ok).2.1
    rw [trim_envOr plain] at parsed
    exact healthTarget_of_parse parsed

def startHost : EnvHost :=
  .std (fun _ => .ok { scheme := some "https", authority := some "api.search.brave.com" }) id

def listenEnv (listen : String) : Env
  | "BRAVE_API_KEYS" => some "first"
  | "LISTEN_ADDR" => some listen
  | _ => none

theorem unspecified_probed :
    ∃ cfg, fromEnv startHost (listenEnv "[::]:9090") = .ok cfg ∧
      ProbesListener cfg.listen (healthcheck (fun _ _ => none) (listenEnv "[::]:9090")) := by
  obtain ⟨cfg, ok⟩ := ok_of_toBool
    (by decide +kernel : (fromEnv startHost (listenEnv "[::]:9090")).toBool = true)
  refine ⟨cfg, ok, (healthcheck_probes_iff _ _ _ cfg _ ok).mpr ?_⟩
  intro raw value
  cases value
  decide

/-- With `LISTEN_ADDR=` the server starts on the default address, and the check gives up. -/
theorem blank_gives_up :
    ∃ cfg, fromEnv startHost (listenEnv "") = .ok cfg ∧ ∀ connectTimeout,
      healthcheck connectTimeout (listenEnv "") = { target := none, exitCode := 2 } ∧
        ¬ ProbesListener cfg.listen (healthcheck connectTimeout (listenEnv "")) := by
  obtain ⟨cfg, ok⟩ := ok_of_toBool
    (by decide +kernel : (fromEnv startHost (listenEnv "")).toBool = true)
  refine ⟨cfg, ok, fun connectTimeout => ?_⟩
  have none : healthTarget "" = none := by decide +kernel
  have gone : healthcheck connectTimeout (listenEnv "") = { target := Option.none, exitCode := 2 } := by
    unfold healthcheck
    rw [listenEnv, Option.getD_some, none]
  refine ⟨gone, ?_⟩
  rw [gone]
  rintro ⟨target, found, -⟩
  cases found

end Config

end BraveRotator
