import BraveRotator.Lib.Simulation
import BraveRotator.Server.Sessions

namespace BraveRotator

/-- A request that lacks the token, and is not for the health page. -/
def ServerEvent.unauthorized (cfg : Config) : ServerEvent → Bool
  | .arrives _ req => !authorized cfg req.headers && decide (route req ≠ .health)
  | _ => false

/-- The answer to such a request. -/
def Output.turnsAway : Output → Bool
  | .refused e => e.status = 401
  | .status (.error e) => e.status = 401
  | .methodNotAllowed => true
  | _ => false

namespace Server

variable {s : Server} {e : ServerEvent}

/-- A request that is turned away leaves the process alone. -/
theorem step_unauthorized (out : e.unauthorized s.cfg = true) :
    s.step e = s ∧ ∃ o, s.output? e = some o ∧ o.turnsAway = true := by
  cases e with
  | arrives now req =>
    simp only [ServerEvent.unauthorized, Bool.and_eq_true, Bool.not_eq_true', decide_eq_true_eq] at out
    obtain ⟨locked, other⟩ := out
    cases routed : route req with
    | proxy =>
      have refused : req.accept s.cfg =
          .error (errorResponse 401 "unauthorized" "missing or wrong X-Proxy-Token" none) := by
        rw [ClientRequest.accept, locked]
        rfl
      simp only [step, arrive, output?, reply?, routed, enter, refused]
      exact ⟨trivial, _, rfl, rfl⟩
    | status =>
      have refused : ∀ p, status s.cfg s.started p now req.headers =
          (p, .error (errorResponse 401 "unauthorized" "missing or wrong X-Proxy-Token" none)) := by
        intro p
        rw [status, locked]
        rfl
      simp only [step, arrive, output?, reply?, routed, refused]
      exact ⟨trivial, _, rfl, rfl⟩
    | health => exact absurd routed other
    | methodNotAllowed =>
      simp only [step, arrive, output?, reply?, routed]
      exact ⟨trivial, _, rfl, rfl⟩
  | _ => cases out

/-- Who lacks the token has no part in it: all others are answered as if those requests had not come,
    and those are turned away. -/
theorem gate_holds (turnstile : Mutex) (host : Host) (uriError : String → Option String) (cfg : Config)
    (started : Instant) (es : List ServerEvent) :
    let s := new turnstile host uriError cfg started
    let admitted := es.filter (!ServerEvent.unauthorized cfg ·)
    s.after admitted = s.after es ∧
      s.outputs admitted = Runs.collect step
        (fun s e => if e.unauthorized cfg = true then none else s.output? e) s es ∧
      ∀ before e after, es = before ++ e :: after → e.unauthorized cfg = true →
        ∃ o, (s.after before).output? e = some o ∧ o.turnsAway = true := by
  intro s admitted
  have keep : ∀ (s : Server) (e : ServerEvent), s.cfg = cfg → (s.step e).cfg = cfg := by
    intro s e same
    exact (s.step_fixed e).1.trans same
  have idle : ∀ (s : Server) (e : ServerEvent), s.cfg = cfg → e.unauthorized cfg = true →
      s.step e = s := by
    rintro s e rfl out
    exact (step_unauthorized out).1
  obtain ⟨last, shown⟩ := Simulation.exec_filter keep idle output? es (s := s) rfl
  refine ⟨last, shown, ?_⟩
  rintro before e after rfl out
  have same : (s.after before).cfg = cfg := (s.after_fixed before).1
  rw [← same] at out
  exact (step_unauthorized out).2

/-- A process that asks for a token. -/
def locked : Server :=
  { ofTests ["key"] with cfg := { Config.ofDefaults ["key"] with proxyToken := some "secret" } }

/-- A request without the token, and one with it that takes the only key there is. -/
def intruded : List ServerEvent :=
  [.arrives 0 (.ofTests "/search"),
    .arrives 1 { ClientRequest.ofTests "/search" with
      headers := MultiMap.empty.insert "x-proxy-token" (HeaderValue.utf8 "secret".toList) },
    .tries 2, .reports 3]

theorem gate_holds_intruded :
    intruded.filter (!ServerEvent.unauthorized locked.cfg ·) = intruded.tail ∧
      (locked.after intruded).pool = (locked.after intruded.tail).pool ∧
      ((locked.after intruded).client? 0).isSome = true ∧
      ∃ o, locked.output? (.arrives 0 (.ofTests "/search")) = some o ∧ o.turnsAway = true := by
  have admitted : intruded.filter (!ServerEvent.unauthorized locked.cfg ·) = intruded.tail := rfl
  obtain ⟨last, -, away⟩ := gate_holds .fifo locked.pool.host (fun _ => none) locked.cfg 0 intruded
  rw [admitted] at last
  exact ⟨admitted, congrArg Server.pool last.symm, by decide, away [] _ _ rfl rfl⟩

end Server

end BraveRotator
