import BraveRotator.Key.Effects
import BraveRotator.Proxy.Session

namespace BraveRotator

section Leases

variable {window : Duration} {i : Nat} {k k' : KeyState}

theorem KeyState.Change.lease {c : Call} {leased : Option Nat} (change : k.Change window i c leased k')
    (j : Nat) : k'.lease j = k.lease j := by
  cases change with
  | digested now o =>
    have fixed := (k.digest_effect now o).fixed
    have token : (k.digest now o).1.token = k.token := congrArg Fixed.token fixed
    have label : (k.digest now o).1.label = k.label := congrArg Fixed.label fixed
    unfold lease
    rw [token, label]
  | bystander now j' o other => rfl
  | granted now exclude free => exact lease_of_tidied (.inr rfl) j
  | tidied _ _ _ passive other tidied => exact lease_of_tidied tidied j

namespace Pool

variable (p : Pool)

theorem after_lease (cs : List Call) (i : Nat) (k' : KeyState) (there : (p.after cs).keys[i]? = some k') :
    ∃ k, p.keys[i]? = some k ∧ ∀ j, k'.lease j = k.lease j := by
  refine Runs.exec_invariant' (I := fun q : Pool => ∀ i k', q.keys[i]? = some k' →
    ∃ k, p.keys[i]? = some k ∧ ∀ j, k'.lease j = k.lease j) ?_ cs ?_ i k' there
  · intro q c same i k' there
    obtain ⟨k, here, change⟩ := q.step_key_inv there
    obtain ⟨k₀, first, lease⟩ := same i k here
    exact ⟨k₀, first, fun j => (change.lease j).trans (lease j)⟩
  · exact fun i k here => ⟨k, here, fun _ => rfl⟩

theorem granted_inv {c : Call} {lease : Lease} (granted : p.granted c = some lease) :
    ∃ k, p.keys[lease.idx]? = some k ∧ lease = k.lease lease.idx := by
  cases c with
  | record now idx outcome => cases granted
  | snapshot now => cases granted
  | tryAcquire now exclude =>
    have cases := p.tryAcquire_cases now exclude
    rw [p.granted_tryAcquire] at granted
    generalize p.tryAcquire now exclude = result at cases granted
    cases cases with
    | leased j k here candidate free best =>
      cases granted
      exact ⟨k, here, rfl⟩
    | waits u noneFree least healthy => cases granted
    | unavailable summary sick => cases granted

end Pool

end Leases

namespace Session

variable {job : Job} {s : Session} {lease : Lease} {result : Except UpstreamError UpstreamRequest}

end Session

/-- The headers in which a client may have put a credential. -/
def isCredential (name : HeaderName) : Bool :=
  ["x-subscription-token", "x-api-key", "x-proxy-token", "authorization"].contains name

theorem strip_of_isCredential {name : HeaderName} (credential : isCredential name = true) :
    stripRequestHeader name = true := by
  unfold isCredential at credential
  rw [List.contains_iff_mem] at credential
  unfold stripRequestHeader
  simp only [List.mem_cons, List.not_mem_nil, or_false] at credential
  rcases credential with rfl | rfl | rfl | rfl
  all_goals decide

namespace ClientRequest

def kept (req : ClientRequest) : List (HeaderName × HeaderValue) :=
  req.headers.entries.filter fun e => !stripRequestHeader e.1

/-- The requests differ in nothing but the headers for credentials. -/
structure AlikeButCredentials (req req' : ClientRequest) : Prop where
  method : req'.method = req.method
  pathAndQuery : req'.pathAndQuery = req.pathAndQuery
  headers : req'.headers.entries.filter (fun e => !isCredential e.1) =
    req.headers.entries.filter fun e => !isCredential e.1
  body : req'.body = req.body

theorem kept_eq (req : ClientRequest) :
    req.kept = (req.headers.entries.filter fun e => !isCredential e.1).filter fun e =>
      !stripRequestHeader e.1 := by
  unfold kept
  rw [List.filter_filter]
  refine List.filter_congr fun e _ => ?_
  cases credential : isCredential e.1 with
  | false => exact (Bool.and_true _).symm
  | true => rw [strip_of_isCredential credential]; rfl

variable {cfg : Config} {req req' : ClientRequest} {r r' : Forward}

theorem accept_inv (ok : req.accept cfg = .ok r) :
    r.method = req.method ∧ r.pathAndQuery = req.pathAndQuery.getD "/" ∧
      r.headers = req.headers.copy (fun name => !stripRequestHeader name) ∧
      collectLimited cfg.maxBodyBytes req.body = .ok r.body := by
  unfold accept at ok
  by_cases allowed : authorized cfg req.headers = true
  · rw [if_pos allowed] at ok
    cases collected : collectLimited cfg.maxBodyBytes req.body with
    | error e =>
      rw [collected] at ok
      cases ok
    | ok body =>
      rw [collected] at ok
      cases ok
      exact ⟨rfl, rfl, rfl, rfl⟩
  · rw [if_neg allowed] at ok
    cases ok

theorem AlikeButCredentials.forward (alike : req.AlikeButCredentials req') (ok : req.accept cfg = .ok r)
    (ok' : req'.accept cfg = .ok r') : r' = r := by
  obtain ⟨method, path, headers, body⟩ := accept_inv ok
  obtain ⟨method', path', headers', body'⟩ := accept_inv ok'
  have sameMethod : r'.method = r.method := by rw [method', method, alike.method]
  have samePath : r'.pathAndQuery = r.pathAndQuery := by rw [path', path, alike.pathAndQuery]
  have copied : r'.headers = r.headers := by
    have same : req'.kept = req.kept := by rw [kept_eq, kept_eq, alike.headers]
    rw [headers, headers']
    exact congrArg (List.foldl _ _) same
  have sameBody : r'.body = r.body := by
    rw [alike.body, body] at body'
    exact (Except.ok.inj body').symm
  cases r
  cases r'
  rw [Forward.mk.injEq]
  exact ⟨sameMethod, samePath, copied, sameBody⟩

end ClientRequest

/-- What `send` adds for clients that leave it out. -/
def defaultHeaders (given : List (HeaderName × HeaderValue)) : List (HeaderName × HeaderValue) :=
  MultiMap.missing given "accept" (HeaderValue.utf8 "application/json".toList) ++
    MultiMap.missing given "user-agent" (HeaderValue.utf8 "brave-rotator/0.1.0".toList)

/-- The request made of a client's has the key's token, and of the client's headers those that are
    passed on, as they came. -/
structure Carries (u : Upstream) (req : ClientRequest) (key : String) (sent : UpstreamRequest) :
    Prop where
  method : sent.method = req.method
  uri : sent.uri = u.base ++ req.pathAndQuery.getD "/"
  headers : sent.headers.entries =
    req.kept ++ ("x-subscription-token", HeaderValue.utf8 key.toList) :: defaultHeaders req.kept
  token : sent.headers.entries.filter (·.1 = "x-subscription-token") =
    [("x-subscription-token", HeaderValue.utf8 key.toList)]

theorem kept_stripped (req : ClientRequest) {e : HeaderName × HeaderValue} (member : e ∈ req.kept) :
    stripRequestHeader e.1 = false := by
  have passes := (List.mem_filter.mp member).2
  rwa [Bool.not_eq_true'] at passes

theorem fromStr_eq_some {s : List Char} {v : HeaderValue} (valid : HeaderValue.fromStr s = some v) :
    v = HeaderValue.utf8 s := by
  unfold HeaderValue.fromStr at valid
  split at valid
  · exact (Option.some.inj valid).symm
  · cases valid

theorem request_inv {u : Upstream} {r : Forward} {key : String} {sent : UpstreamRequest}
    (bare : r.headers.contains "x-subscription-token" = false) (ok : u.request r key = .ok sent) :
    sent.method = r.method ∧ sent.uri = u.base ++ r.pathAndQuery ∧ sent.headers.entries =
      r.headers.entries ++ ("x-subscription-token", HeaderValue.utf8 key.toList) ::
        defaultHeaders r.headers.entries := by
  unfold Upstream.request at ok
  dsimp only at ok
  cases invalid : u.uriError (u.base ++ r.pathAndQuery) with
  | some e =>
    rw [invalid] at ok
    cases ok
  | none =>
    rw [invalid] at ok
    cases valid : HeaderValue.fromStr key.toList with
    | none =>
      rw [valid] at ok
      cases ok
    | some token =>
      obtain rfl := fromStr_eq_some valid
      rw [valid, MultiMap.copy_true] at ok
      cases ok
      have tokenOther : ∀ {name : HeaderName}, "x-subscription-token" ≠ name →
          ∀ e ∈ [("x-subscription-token", HeaderValue.utf8 key.toList)], e.1 ≠ name := by
        intro name ne e member
        rw [List.mem_singleton.mp member]
        exact ne
      have acceptOther : ∀ e ∈ MultiMap.missing r.headers.entries "accept"
          (HeaderValue.utf8 "application/json".toList), e.1 ≠ "user-agent" := by
        intro e member
        rw [MultiMap.fst_of_mem_missing member]
        decide
      have first : (r.headers.insert "x-subscription-token" (HeaderValue.utf8 key.toList)).entries =
          r.headers.entries ++ [("x-subscription-token", HeaderValue.utf8 key.toList)] :=
        MultiMap.entries_insert_of_notContains bare
      refine ⟨rfl, rfl, ?_⟩
      rw [MultiMap.entries_insert_missing, MultiMap.entries_insert_missing, first,
        MultiMap.missing_append (tokenOther (by decide)), MultiMap.missing_append acceptOther,
        MultiMap.missing_append (tokenOther (by decide)), List.append_assoc, List.append_assoc]
      rfl

theorem defaultHeaders_name {given : List (HeaderName × HeaderValue)} {e : HeaderName × HeaderValue}
    (member : e ∈ defaultHeaders given) : e.1 ≠ "x-subscription-token" := by
  unfold defaultHeaders at member
  rcases List.mem_append.mp member with member | member
  · rw [MultiMap.fst_of_mem_missing member]
    decide
  · rw [MultiMap.fst_of_mem_missing member]
    decide

theorem kept_name (req : ClientRequest) {e : HeaderName × HeaderValue} (member : e ∈ req.kept) :
    e.1 ≠ "x-subscription-token" := by
  intro same
  have stripped := kept_stripped req member
  rw [same] at stripped
  exact absurd stripped (by decide)

theorem carries {cfg : Config} {u : Upstream} {req : ClientRequest} {r : Forward} {key : String}
    {sent : UpstreamRequest} (ok : req.accept cfg = .ok r) (built : u.request r key = .ok sent) :
    Carries u req key sent := by
  obtain ⟨method, path, headers, -⟩ := ClientRequest.accept_inv ok
  have entries : r.headers.entries = req.kept := by
    rw [headers, MultiMap.entries_copy]
    rfl
  have bare : r.headers.contains "x-subscription-token" = false := by
    rw [MultiMap.contains_eq_any, entries, List.any_eq_false]
    intro e member same
    exact kept_name req member (of_decide_eq_true same)
  obtain ⟨sameMethod, uri, sentHeaders⟩ := request_inv bare built
  rw [entries] at sentHeaders
  refine ⟨sameMethod.trans method, by rw [uri, path], sentHeaders, ?_⟩
  have front : req.kept.filter (·.1 = "x-subscription-token") = [] := by
    rw [List.filter_eq_nil_iff]
    exact fun e member same => kept_name req member (of_decide_eq_true same)
  have back : (defaultHeaders req.kept).filter (·.1 = "x-subscription-token") = [] := by
    rw [List.filter_eq_nil_iff]
    exact fun e member same => defaultHeaders_name member (of_decide_eq_true same)
  have own : (("x-subscription-token", HeaderValue.utf8 key.toList) ::
      defaultHeaders req.kept).filter (·.1 = "x-subscription-token") =
        [("x-subscription-token", HeaderValue.utf8 key.toList)] := by
    rw [List.filter_cons, if_pos (decide_eq_true rfl), back]
  rw [sentHeaders, List.filter_append, front, own, List.nil_append]

def guarded : Config := { Config.ofDefaults ["first"] with proxyToken := some "secret" }

def german : Bucket HeaderName HeaderValue where
  name := "accept-language"
  first := HeaderValue.utf8 "de".toList
  more := [HeaderValue.utf8 "en".toList]

def inGerman : Forward where
  method := "GET"
  pathAndQuery := "/res/v1/web/search?q=brave"
  headers := ⟨[german], by decide⟩
  body := []

end BraveRotator
