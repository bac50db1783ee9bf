import BraveRotator.Proxy.Credentials

namespace BraveRotator

abbrev Header := HeaderName × HeaderValue

/-- What the commas of a `Connection` header separate, in lower case and without the blanks around it. -/
def connectionOptions (v : HeaderValue) : List (List UInt8) :=
  let blank := fun (b : UInt8) => decide (b = 32 ∨ b = 9)
  let lower := fun (b : UInt8) => if 65 ≤ b.toNat ∧ b.toNat ≤ 90 then b + 32 else b
  (v.splitOnP (· = 44)).map fun option => ((option.dropWhile blank).rdropWhile blank).map lower

/-- A `Connection` header of the message has the name as an option. -/
def namedByConnection (given : List Header) (name : HeaderName) : Bool :=
  given.any fun e =>
    e.1 = "connection" && (connectionOptions e.2).contains (HeaderValue.utf8 name.toList)

/-- What RFC 9110 §7.6.1 lets no proxy pass on of a message: the fixed names, with `Proxy-Connection`
    among them, and those that the message itself gives. -/
def endsHere (given : List Header) (name : HeaderName) : Bool :=
  hopByHop name || name = "proxy-connection" || namedByConnection given name

/-- Of the headers given, those that are not the proxy's own are passed on as they came, but for those
    that must end here. -/
structure StopsHopByHop (own : HeaderName → Bool) (given passed : List Header) : Prop where
  stops : ∀ e ∈ passed, endsHere given e.1 = false
  others : passed.filter (fun e => !own e.1 && !endsHere given e.1) =
    given.filter fun e => !own e.1 && !endsHere given e.1

/-- None of the headers that the fixed names leave is named by a `Connection` header next to it, or is
    called `Proxy-Connection`. -/
def Unnamed (own : HeaderName → Bool) (given : List Header) : Prop :=
  ∀ e ∈ given, own e.1 = false → hopByHop e.1 = false →
    e.1 ≠ "proxy-connection" ∧ namedByConnection given e.1 = false

instance Unnamed.decidable (own : HeaderName → Bool) (given : List Header) :
    Decidable (Unnamed own given) :=
  inferInstanceAs (Decidable (∀ e ∈ given, own e.1 = false → hopByHop e.1 = false →
    e.1 ≠ "proxy-connection" ∧ namedByConnection given e.1 = false))

section Filter

variable {own : HeaderName → Bool} {given passed : List Header}

theorem endsHere_false_iff {name : HeaderName} :
    endsHere given name = false ↔
      hopByHop name = false ∧ name ≠ "proxy-connection" ∧ namedByConnection given name = false := by
  unfold endsHere
  rw [Bool.or_eq_false_iff, Bool.or_eq_false_iff, decide_eq_false_iff_not, and_assoc]

/-- A filter by name alone is right when the message has no names of its own. -/
theorem stopsHopByHop_iff (kept : passed = given.filter fun e => !own e.1 && !hopByHop e.1) :
    StopsHopByHop own given passed ↔ Unnamed own given := by
  subst kept
  constructor
  · intro right e member notOwn notFixed
    have passes : e ∈ given.filter fun e => !own e.1 && !hopByHop e.1 := by
      rw [List.mem_filter, notOwn, notFixed]
      exact ⟨member, rfl⟩
    exact (endsHere_false_iff.mp (right.stops e passes)).2
  · intro unnamed
    constructor
    · intro e member
      obtain ⟨member, passes⟩ := List.mem_filter.mp member
      rw [Bool.and_eq_true, Bool.not_eq_true', Bool.not_eq_true'] at passes
      exact endsHere_false_iff.mpr ⟨passes.2, unnamed e member passes.1 passes.2⟩
    · rw [List.filter_filter]
      refine List.filter_congr fun e _ => ?_
      cases fixed : hopByHop e.1 with
      | false => rw [Bool.not_false, Bool.and_true, Bool.and_right_comm, Bool.and_self]
      | true =>
        have here : endsHere given e.1 = true := by
          unfold endsHere
          rw [fixed, Bool.true_or, Bool.true_or]
        rw [here, Bool.not_true, Bool.and_false, Bool.false_and]

end Filter

/-- The names that `strip_request_header` adds to the fixed ones. -/
def ownInRequest (name : HeaderName) : Bool :=
  ["host", "expect", "x-subscription-token", "x-api-key", "x-proxy-token",
    "authorization"].contains name

/-- The names that `build_response` replaces or writes itself. -/
def ownInResponse (name : HeaderName) : Bool :=
  "x-ratelimit-".toList.isPrefixOf name.toList || name = "x-rotator-key" ||
    name = "x-rotator-attempts"

theorem request_stops_iff {cfg : Config} {req : ClientRequest} {r : Forward}
    (ok : req.accept cfg = .ok r) :
    StopsHopByHop ownInRequest req.headers.entries r.headers.entries ↔
      Unnamed ownInRequest req.headers.entries := by
  obtain ⟨-, -, headers, -⟩ := ClientRequest.accept_inv ok
  apply stopsHopByHop_iff
  rw [headers, MultiMap.entries_copy]
  refine List.filter_congr fun e _ => ?_
  show (!(hopByHop e.1 || ownInRequest e.1)) = _
  rw [Bool.not_or, Bool.and_comm]

section Response

variable {p : HeaderName → Bool}

theorem filter_setHeader (h : HeaderMap) {name : HeaderName} (value : String)
    (drops : p name = false) :
    (setHeader h name value).entries.filter (fun e => p e.1) = h.entries.filter fun e => p e.1 := by
  unfold setHeader
  cases HeaderValue.fromStr value.toList with
  | none => rfl
  | some v => exact MultiMap.filter_entries_insert drops

/-- The headers of the response but for the proxy's own. -/
def passedOn (res : UpstreamResponse) : List Header :=
  res.headers.entries.filter fun e => !ownInResponse e.1

theorem passedOn_buildResponse (pool : Pool) (now : Instant) (up : UpstreamResponse) (label : String)
    (attempts : Nat) :
    passedOn (buildResponse pool now up label attempts).2 =
      up.headers.entries.filter fun e => !ownInResponse e.1 && !hopByHop e.1 := by
  unfold passedOn buildResponse
  dsimp only
  rw [filter_setHeader (p := fun name => !ownInResponse name) _ _ (by decide),
    filter_setHeader (p := fun name => !ownInResponse name) _ _ (by decide),
    filter_setHeader (p := fun name => !ownInResponse name) _ _ (by decide),
    filter_setHeader (p := fun name => !ownInResponse name) _ _ (by decide),
    MultiMap.entries_copy, List.filter_filter]
  refine List.filter_congr fun e _ => ?_
  unfold stripResponseHeader ownInResponse
  cases hopByHop e.1 <;> cases "x-ratelimit-".toList.isPrefixOf e.1.toList <;> simp

theorem response_stops_iff (pool : Pool) (now : Instant) (up : UpstreamResponse) (label : String)
    (attempts : Nat) :
    StopsHopByHop ownInResponse up.headers.entries
        (passedOn (buildResponse pool now up label attempts).2) ↔
      Unnamed ownInResponse up.headers.entries :=
  stopsHopByHop_iff (passedOn_buildResponse pool now up label attempts)

end Response

/-- In both directions, what must end at the proxy does so exactly when no header of the message is
    named by a `Connection` header of it. -/
theorem hop_by_hop_stops_iff (cfg : Config) (req : ClientRequest) (r : Forward)
    (ok : req.accept cfg = .ok r) :
    (∀ u key sent, Upstream.request u r key = .ok sent → sent.headers.entries =
        r.headers.entries ++ ("x-subscription-token", HeaderValue.utf8 key.toList) ::
          defaultHeaders r.headers.entries) ∧
      (StopsHopByHop ownInRequest req.headers.entries r.headers.entries ↔
        Unnamed ownInRequest req.headers.entries) ∧
      ∀ (pool : Pool) (now : Instant) (up : UpstreamResponse) (label : String) (attempts : Nat),
        StopsHopByHop ownInResponse up.headers.entries
            (passedOn (buildResponse pool now up label attempts).2) ↔
          Unnamed ownInResponse up.headers.entries := by
  refine ⟨?_, request_stops_iff ok, response_stops_iff⟩
  intro u key sent built
  rw [(carries ok built).headers, (ClientRequest.accept_inv ok).2.2.1, MultiMap.entries_copy]
  rfl

def tracing : Bucket HeaderName HeaderValue where
  name := "x-trace"
  first := HeaderValue.utf8 "1".toList

def listed : Bucket HeaderName HeaderValue where
  name := "connection"
  first := HeaderValue.utf8 "close".toList
  more := [HeaderValue.utf8 "te , X-Trace".toList]

def withOptions : ClientRequest where
  method := "GET"
  pathAndQuery := some "/res/v1/web/search?q=brave"
  headers := ⟨[tracing, german, listed], by decide⟩
  body := []

def traced : Forward where
  method := "GET"
  pathAndQuery := "/res/v1/web/search?q=brave"
  headers := ⟨[tracing, german], by decide⟩
  body := []

def okWithOptions : UpstreamResponse where
  status := 200
  headers := ⟨[listed, tracing], by decide⟩
  body := []

/-- As a client asks that speaks of its own connection alone. -/
def keptAlive : ClientRequest where
  method := "GET"
  pathAndQuery := some "/res/v1/web/search?q=brave"
  headers :=
    ⟨[{ name := "connection", first := HeaderValue.utf8 "Keep-Alive, te".toList },
      { name := "te", first := HeaderValue.utf8 "trailers".toList }, german,
      { name := "keep-alive", first := HeaderValue.utf8 "timeout=5".toList },
      { name := "x-proxy-token", first := HeaderValue.utf8 "secret".toList }], by decide⟩
  body := []

theorem kept_alive_stops :
    endsHere keptAlive.headers.entries "te" = true ∧
      StopsHopByHop ownInRequest keptAlive.headers.entries inGerman.headers.entries :=
  ⟨by decide, (hop_by_hop_stops_iff guarded keptAlive inGerman rfl).2.1.mpr (by decide)⟩

/-- A header that the message lists in `Connection` is passed on, in both directions. -/
theorem connection_options_ignored :
    withOptions.accept (Config.ofDefaults ["first"]) = .ok traced ∧
      ¬ StopsHopByHop ownInRequest withOptions.headers.entries traced.headers.entries ∧
      ¬ StopsHopByHop ownInResponse okWithOptions.headers.entries
        (passedOn (buildResponse (.ofTests ["first"] []) 0 okWithOptions "k1:..irst" 1).2) := by
  refine ⟨rfl, ?_, ?_⟩
  · intro right
    have stopped := right.stops ("x-trace", HeaderValue.utf8 "1".toList) (by decide)
    exact absurd stopped (by decide)
  · intro right
    have stopped := right.stops ("x-trace", HeaderValue.utf8 "1".toList) (by decide)
    exact absurd stopped (by decide)

end BraveRotator
