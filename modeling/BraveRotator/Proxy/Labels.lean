import BraveRotator.Proxy.Credentials
import BraveRotator.Proxy.History

namespace BraveRotator

namespace HeaderValue

theorem fromStr_isSome {s : List Char} :
    (fromStr s).isSome = true ↔ ∀ c ∈ s, (String.utf8EncodeChar c).all isValid = true := by
  have all : (utf8 s).all isValid = true ↔ ∀ c ∈ s, (String.utf8EncodeChar c).all isValid = true := by
    unfold utf8
    rw [List.all_flatMap, List.all_eq_true]
  rw [← all]
  unfold fromStr
  split <;> simp_all

theorem fromStr_of_valid {s : List Char} (valid : ∀ c ∈ s, (String.utf8EncodeChar c).all isValid = true) :
    fromStr s = some (utf8 s) := by
  have some := fromStr_isSome.mpr valid
  unfold fromStr at some ⊢
  split
  · rfl
  · rename_i bad
    rw [if_neg bad] at some
    cases some

theorem valid_of_plain {c : Char} (plain : Plain c) : (String.utf8EncodeChar c).all isValid = true := by
  have all : ∀ d ∈ [c], Plain d := by
    intro d member
    rw [List.mem_singleton.mp member]
    exact plain
  obtain ⟨v, written, -⟩ := toStr_of_plain all
  have some : (fromStr [c]).isSome = true := by
    rw [written]
    rfl
  exact fromStr_isSome.mp some c (List.mem_singleton_self c)

end HeaderValue

/-- The label that `KeyState.new` gives a key. -/
def labelOf (idx : Nat) (token : String) : String :=
  s!"k{idx + 1}:..{String.ofList (token.toList.reverse.take 4).reverse}"

theorem labelOf_toList (idx : Nat) (token : String) :
    (labelOf idx token).toList =
      'k' :: ((idx + 1).repr.toList ++ ':' :: '.' :: '.' :: (token.toList.reverse.take 4).reverse) := by
  show ("k" ++ (idx + 1).repr ++ ":.." ++ String.ofList _).toList = _
  simp only [String.toList_append, String.toList_ofList]
  show ['k'] ++ (idx + 1).repr.toList ++ [':', '.', '.'] ++ _ = _
  simp

theorem repr_of_label (idx : Nat) (token : String) :
    (labelOf idx token).toList.tail.takeWhile (· ≠ ':') = (idx + 1).repr.toList := by
  have digits : ∀ c ∈ (idx + 1).repr.toList, decide (c ≠ ':') = true := by
    intro c member
    apply decide_eq_true
    intro colon
    have digit := Text.isDigit_of_mem_repr member
    rw [colon] at digit
    cases digit
  rw [labelOf_toList, List.tail_cons, List.takeWhile_append_of_pos digits, List.takeWhile_cons]
  simp

/-- A label belongs to one key only, whatever the tokens end in. -/
theorem labelOf_injective {i j : Nat} {token token' : String}
    (same : labelOf i token = labelOf j token') : i = j := by
  have digits : (i + 1).repr.toList = (j + 1).repr.toList := by
    rw [← repr_of_label i token, ← repr_of_label j token', same]
  have numbers := congrArg (Nat.ofDigitChars 10 · 0) digits
  simp only [Nat.toList_repr, Nat.ofDigitChars_ten_toDigits] at numbers
  omega

theorem plain_of_isDigit {c : Char} (digit : c.isDigit = true) : HeaderValue.Plain c := by
  have range := Text.toNat_of_isDigit digit
  exact ⟨by omega, by omega⟩

/-- A label can be sent in a header when the token can. -/
theorem fromStr_labelOf {token : String} (valid : (HeaderValue.fromStr token.toList).isSome = true)
    (idx : Nat) :
    HeaderValue.fromStr (labelOf idx token).toList =
      some (HeaderValue.utf8 (labelOf idx token).toList) := by
  rw [HeaderValue.fromStr_isSome] at valid
  apply HeaderValue.fromStr_of_valid
  rw [labelOf_toList]
  intro c member
  simp only [List.mem_cons, List.mem_append, List.mem_reverse] at member
  rcases member with rfl | digit | rfl | rfl | rfl | tail
  · exact HeaderValue.valid_of_plain ⟨by decide, by decide⟩
  · exact HeaderValue.valid_of_plain (plain_of_isDigit (Text.isDigit_of_mem_repr digit))
  · exact HeaderValue.valid_of_plain ⟨by decide, by decide⟩
  · exact HeaderValue.valid_of_plain ⟨by decide, by decide⟩
  · exact HeaderValue.valid_of_plain ⟨by decide, by decide⟩
  · exact valid c (List.mem_reverse.mp (List.mem_of_mem_take tail))

section Headers

variable {h : HeaderMap} {name : HeaderName} {value : String}

theorem setHeader_of_valid {v : HeaderValue} (valid : HeaderValue.fromStr value.toList = some v) :
    setHeader h name value = h.insert name v := by
  rw [setHeader, valid]

theorem fromStr_repr (n : Nat) :
    HeaderValue.fromStr (toString n).toList = some (HeaderValue.utf8 (toString n).toList) := by
  apply HeaderValue.fromStr_of_valid
  intro c member
  exact HeaderValue.valid_of_plain (plain_of_isDigit (Text.isDigit_of_mem_repr member))

/-- The response says which key it came with, and how many attempts there were, each in one header. -/
structure Names (label : String) (attempts : Nat) (up up' : UpstreamResponse) : Prop where
  status : up'.status = up.status
  body : up'.body = up.body
  key : up'.headers.entries.filter (·.1 = "x-rotator-key") =
    [("x-rotator-key", HeaderValue.utf8 label.toList)]
  attempts : up'.headers.entries.filter (·.1 = "x-rotator-attempts") =
    [("x-rotator-attempts", HeaderValue.utf8 (toString attempts).toList)]

theorem buildResponse_names (p : Pool) (now : Instant) (up : UpstreamResponse) {label : String}
    (attempts : Nat)
    (valid : HeaderValue.fromStr label.toList = some (HeaderValue.utf8 label.toList)) :
    Names label attempts up (buildResponse p now up label attempts).2 := by
  have apart : decide ("x-rotator-attempts" = "x-rotator-key") = false := by decide
  refine ⟨rfl, rfl, ?_, ?_⟩
  · show (setHeader (setHeader _ "x-rotator-key" label) "x-rotator-attempts"
      (toString attempts)).entries.filter _ = _
    rw [setHeader_of_valid (fromStr_repr attempts), setHeader_of_valid valid,
      MultiMap.filter_entries_insert (p := fun name => decide (name = "x-rotator-key")) apart]
    exact MultiMap.filter_entries_insert_self
  · show (setHeader (setHeader _ "x-rotator-key" label) "x-rotator-attempts"
      (toString attempts)).entries.filter _ = _
    rw [setHeader_of_valid (fromStr_repr attempts)]
    exact MultiMap.filter_entries_insert_self

end Headers

theorem Upstream.send_eq (u : Upstream) (r : Forward) (key : String) (x : Exchange) :
    u.send r key x =
      match u.uriError (u.base ++ r.pathAndQuery), (HeaderValue.fromStr key.toList).isSome with
      | some e, _ => .error (.request s!"invalid request for {u.base ++ r.pathAndQuery}: {e}")
      | none, false => .error (.request "key contains invalid header characters")
      | none, true => u.receive x := by
  unfold send request
  dsimp only
  cases u.uriError (u.base ++ r.pathAndQuery) with
  | some e => rfl
  | none => cases HeaderValue.fromStr key.toList <;> rfl

theorem Upstream.valid_of_send {u : Upstream} {r : Forward} {key : String} {x : Exchange}
    {up : UpstreamResponse} (sent : u.send r key x = .ok up) :
    (HeaderValue.fromStr key.toList).isSome = true := by
  rw [send_eq] at sent
  split at sent
  · cases sent
  · cases sent
  · assumption

theorem Attempt.chosen?_inv {most : Nat} {log : List Attempt} {up : UpstreamResponse} {label : String}
    (chosen : chosen? most log = some (up, label)) : ∃ a ∈ log, a.2 = .ok up ∧ a.1.label = label := by
  have from_ : ∀ a : Attempt, a.response? = some (up, label) → a.2 = .ok up ∧ a.1.label = label := by
    intro a same
    obtain ⟨lease, e | up'⟩ := a
    · cases same
    · cases same
      exact ⟨rfl, rfl⟩
  unfold chosen? at chosen
  split at chosen
  · rename_i a found
    exact ⟨a, List.mem_of_find?_eq_some found, from_ a chosen⟩
  · split at chosen
    · cases chosen
    · obtain ⟨a, member, same⟩ := List.mem_filterMap.mp (List.mem_of_getLast? chosen)
      exact ⟨a, member, from_ a same⟩

namespace Session

variable {job : Job} {s : Session}

theorem sending_inv (es : List ProxyEvent) {p : Pool} {lease : Lease}
    (sending : (({ pool := p } : Session).run job es).phase = .sending lease) :
    ∃ k, p.keys[lease.idx]? = some k ∧ lease = k.lease lease.idx := by
  induction es using List.reverseRecOn generalizing lease with
  | nil => cases sending
  | append_singleton es e ih =>
    rw [run_append] at sending
    have turned := step_turned job (({ pool := p } : Session).run job es) e
    have stepped : (({ pool := p } : Session).run job es).run job [e] = step job _ e := rfl
    rw [stepped] at sending
    generalize step job _ e = s' at turned sending
    cases turned with
    | idles _ q unleased unsent => exact ih sending
    | leases now q lease' acquiring granted =>
      cases sending
      obtain ⟨k', there, granted⟩ := Pool.granted_inv _ granted
      rw [run_pool] at there
      obtain ⟨k, here, same⟩ := p.after_lease _ _ _ there
      exact ⟨k, here, granted.trans (same _)⟩
    | fails now q err acquiring unleased => cases sending
    | receives now x lease' phase => exact absurd sending (receive_sending job _ _)
    | builds now up label building => cases sending

/-- Where an attempt comes from. -/
theorem log_inv {p : Pool} {es : List ProxyEvent} {a : Attempt}
    (member : a ∈ ({ pool := p } : Session).log job es) :
    (∃ k, p.keys[a.1.idx]? = some k ∧ a.1 = k.lease a.1.idx) ∧
      ∃ x, a.2 = job.upstream.send job.forward a.1.token x := by
  obtain ⟨front, back, split⟩ := List.append_of_mem member
  obtain ⟨before, e, after, -, -, attempted, -⟩ := Runs.collect_split split
  obtain ⟨⟨now, lease, result⟩, sent, rfl⟩ := Option.map_eq_some_iff.mp attempted
  cases e with
  | replies t x =>
    cases phase : (Runs.exec (step job) ({ pool := p } : Session) before).phase with
    | sending lease' =>
      rw [sent?_replies phase] at sent
      cases sent
      exact ⟨sending_inv before phase, x, rfl⟩
    | _ =>
      simp only [sent?, phase] at sent
      cases sent
  | _ => cases sent

end Session

theorem Pool.after_label (host : Host) (tokens : List String) (cfg : PoolConfig) (cs : List Call)
    {i : Nat} {k : KeyState} (here : ((new host tokens cfg).after cs).keys[i]? = some k) :
    k.label = labelOf i k.token := by
  obtain ⟨k₀, first, same⟩ := (new host tokens cfg).after_lease cs i k here
  have label : k.label = k₀.label := congrArg Lease.label (same 0)
  have token : k.token = k₀.token := congrArg Lease.token (same 0)
  obtain ⟨t, rfl⟩ := new_key host tokens cfg first
  rw [label, token]
  rfl

/-- A response that is passed on names one of the keys: the one it came with. -/
theorem Forward.names_its_key (host : Host) (tokens : List String) (poolCfg : PoolConfig)
    (cs : List Call) (r : Forward) (cfg : Config) (upstream : Upstream) (started : Instant)
    (es : List ProxyEvent) (up' : UpstreamResponse) :
    let p := (Pool.new host tokens poolCfg).after cs
    let job := r.job cfg upstream p started
    (({ pool := p } : Session).run job es).phase = .answered (.forwarded up') →
      ∃ a ∈ ({ pool := p } : Session).log job es, ∃ up, a.2 = .ok up ∧
        Names a.1.label (({ pool := p } : Session).log job es).length up up' ∧
        ∀ (i : Nat) (k : KeyState), p.keys[i]? = some k → (k.label = a.1.label ↔ i = a.1.idx) := by
  intro p job answered
  have room : 0 < job.maxAttempts := by
    show 0 < max 2 (min p.keys.length 5)
    omega
  have reached := (Session.told_run job p room es).reached
  rw [answered] at reached
  cases reached with
  | forwarded q now up label chosen =>
    obtain ⟨a, member, came, rfl⟩ := Attempt.chosen?_inv chosen
    obtain ⟨⟨k, here, lease⟩, x, sent⟩ := Session.log_inv member
    have label : a.1.label = labelOf a.1.idx a.1.token := by
      have named := Pool.after_label host tokens poolCfg cs here
      rw [lease]
      exact named
    have valid : HeaderValue.fromStr a.1.label.toList = some (HeaderValue.utf8 a.1.label.toList) := by
      rw [label]
      exact fromStr_labelOf (Upstream.valid_of_send (sent.symm.trans came)) _
    refine ⟨a, member, up, came, buildResponse_names q now up _ valid, ?_⟩
    intro i k' there
    have named := Pool.after_label host tokens poolCfg cs there
    constructor
    · intro same
      rw [named, label] at same
      exact labelOf_injective same
    · rintro rfl
      rw [here] at there
      cases there
      exact (congrArg Lease.label lease).symm

/-- The first key of two, asked once. -/
def askedOnce : List ProxyEvent := [.tries 0, .replies 1 (okWith [123, 125]), .builds 2]

theorem first_key_named :
    ∃ up', (({ pool := .ofTests twoBytes.keys [] } : Session).run webSearchJob askedOnce).phase =
        .answered (.forwarded up') ∧
      ∃ a ∈ ({ pool := .ofTests twoBytes.keys [] } : Session).log webSearchJob askedOnce,
        ∃ up, a.2 = .ok up ∧ Names a.1.label 1 up up' := by
  obtain ⟨up', answered⟩ : ∃ up', (({ pool := .ofTests twoBytes.keys [] } : Session).run webSearchJob
      askedOnce).phase = .answered (.forwarded up') := ⟨_, rfl⟩
  obtain ⟨a, member, up, came, names, -⟩ := Forward.names_its_key (Pool.ofTests twoBytes.keys []).host
    twoBytes.keys (Pool.ofTests twoBytes.keys []).cfg [] webSearch twoBytes
    (twoBytes.upstream fun _ => none) 0 askedOnce up' answered
  refine ⟨up', answered, ?_⟩
  exact ⟨a, member, up, came, names⟩

end BraveRotator
