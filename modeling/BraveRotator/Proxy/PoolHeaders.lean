import Mathlib.Algebra.Order.Ring.Nat
import BraveRotator.Model.Proxy
import BraveRotator.Pool.TryAcquire
import BraveRotator.Proxy.Windows

namespace BraveRotator

section Writing

variable {h : HeaderMap} {name other : HeaderName} {text : List Char} {value : String}

/-- What `from_headers` gets for the name. -/
def HeaderMap.Reads (h : HeaderMap) (name : HeaderName) (text : List Char) : Prop :=
  (h.get? name).bind HeaderValue.toStr = some text

theorem reads_setHeader (plain : ∀ c ∈ value.toList, HeaderValue.Plain c) :
    (setHeader h name value).Reads name value.toList := by
  obtain ⟨v, written, read⟩ := HeaderValue.toStr_of_plain plain
  unfold HeaderMap.Reads setHeader
  rw [written]
  dsimp only
  rw [MultiMap.get?_insert_self]
  exact read

theorem HeaderMap.Reads.setHeader (reads : h.Reads name text) (ne : name ≠ other) (value : String) :
    (setHeader h other value).Reads name text := by
  unfold HeaderMap.Reads BraveRotator.setHeader
  cases HeaderValue.fromStr value.toList with
  | none => exact reads
  | some v =>
    dsimp only
    rw [MultiMap.get?_insert_of_ne ne]
    exact reads

theorem fromHeaders_of_reads {limit remaining : List Char} (reads : h.Reads "x-ratelimit-limit" limit)
    (reads' : h.Reads "x-ratelimit-remaining" remaining) :
    ∃ info, RateLimitInfo.fromHeaders h = some info ∧ info.limit = parseWindows limit ∧
      info.remaining = parseWindows remaining := by
  unfold HeaderMap.Reads at reads reads'
  unfold RateLimitInfo.fromHeaders
  simp only [reads, reads']
  exact ⟨_, rfl, rfl, rfl⟩

end Writing

section Months

variable (snap : PoolSnapshot)

/-- A monthly value of the pool, once it has been written and read back. -/
def shownMonth (v : Option Nat) : Option Nat := if 0 < snap.monthUnlimitedKeys then some 0 else v

theorem monthText_reads {v : Option Nat} (le : ∀ n, v = some n → n ≤ u64Max) :
    parseU64 (monthText snap v).toList = shownMonth snap v := by
  unfold monthText shownMonth
  by_cases unlimited : 0 < snap.monthUnlimitedKeys
  · rw [if_pos unlimited, if_pos unlimited]
    decide
  · rw [if_neg unlimited, if_neg unlimited]
    cases v with
    | none => decide
    | some n => exact parseU64_repr (le n rfl)

theorem monthText_char (v : Option Nat) :
    ∀ c ∈ (monthText snap v).toList, c = '?' ∨ c.isDigit = true := by
  unfold monthText
  by_cases unlimited : 0 < snap.monthUnlimitedKeys
  · rw [if_pos unlimited]
    exact fun c member => .inr (Text.isDigit_of_mem_repr (n := 0) member)
  · rw [if_neg unlimited]
    cases v with
    | none => exact fun c member => .inl (List.mem_singleton.mp member)
    | some n => exact fun c member => .inr (Text.isDigit_of_mem_repr (n := n) member)

theorem solid_of_digit {c : Char} (digit : c = '?' ∨ c.isDigit = true) : Solid c := by
  rcases digit with rfl | digit
  · exact ⟨by decide, by decide, by decide⟩
  · refine ⟨Text.isWhitespace_of_isDigit digit, ?_, ?_⟩
    · rintro rfl
      exact absurd digit (by decide)
    · rintro rfl
      exact absurd digit (by decide)

theorem plain_of_digit {c : Char} (digit : c = '?' ∨ c.isDigit = true) : HeaderValue.Plain c := by
  rcases digit with rfl | digit
  · exact ⟨by decide, by decide⟩
  · have range := Text.toNat_of_isDigit digit
    exact ⟨by omega, by omega⟩

theorem pair_reads (h : HeaderMap) (name : HeaderName) (rate : Nat) {v : Option Nat}
    (le : ∀ n, v = some n → n ≤ u64Max) :
    ∃ text, (setHeader h name s!"{rate}, {monthText snap v}").Reads name text ∧
      (parseWindows text).month = shownMonth snap v ∧
      (rate ≤ u64Max → (parseWindows text).second = some rate) := by
  have written : s!"{rate}, {monthText snap v}".toList =
      joined rate.repr.toList (' ' :: (monthText snap v).toList) [] := by
    unfold joined
    simp only [String.toList_append, toString, List.append_assoc, List.flatMap_nil, List.append_nil]
    rfl
  have digits : ∀ c ∈ rate.repr.toList, c = '?' ∨ c.isDigit = true :=
    fun _ member => .inr (Text.isDigit_of_mem_repr member)
  have digits' := monthText_char snap v
  have read := parseWindows_pair (fun c member => solid_of_digit (digits c member))
    fun c member => solid_of_digit (digits' c member)
  refine ⟨_, reads_setHeader ?_, ?_⟩
  · intro c member
    rw [written, joined, List.flatMap_nil, List.append_nil, List.mem_append, List.mem_cons,
      List.mem_cons] at member
    rcases member with member | rfl | rfl | member
    · exact plain_of_digit (digits c member)
    · exact ⟨by decide, by decide⟩
    · exact ⟨by decide, by decide⟩
    · exact plain_of_digit (digits' c member)
  · rw [written, read]
    exact ⟨monthText_reads snap le, parseU64_repr⟩

/-- What a client reads in the headers of a response are the values of the pool. -/
theorem buildResponse_reads (p : Pool) (now : Instant) (up : UpstreamResponse) (label : String)
    (attempts : Nat)
    (limits : ∀ n, (p.snapshot now).2.monthLimitTotal = some n → n ≤ u64Max)
    (remainings : ∀ n, (p.snapshot now).2.monthRemainingTotal = some n → n ≤ u64Max) :
    ∃ info, RateLimitInfo.fromHeaders (buildResponse p now up label attempts).2.headers = some info ∧
      info.limit.month = shownMonth (p.snapshot now).2 (p.snapshot now).2.monthLimitTotal ∧
      info.remaining.month = shownMonth (p.snapshot now).2 (p.snapshot now).2.monthRemainingTotal ∧
      ((p.snapshot now).2.rpsCapacity ≤ u64Max →
        info.limit.second = some (p.snapshot now).2.rpsCapacity) ∧
      ((p.snapshot now).2.slotsAvailableNow ≤ u64Max →
        info.remaining.second = some (p.snapshot now).2.slotsAvailableNow) := by
  let snap := (p.snapshot now).2
  let stripped := up.headers.copy fun name => !stripResponseHeader name
  let first := setHeader stripped "x-ratelimit-limit"
    s!"{snap.rpsCapacity}, {monthText snap snap.monthLimitTotal}"
  let second := setHeader first "x-ratelimit-remaining"
    s!"{snap.slotsAvailableNow}, {monthText snap snap.monthRemainingTotal}"
  obtain ⟨limit, reads, month, rate⟩ :=
    pair_reads snap stripped "x-ratelimit-limit" snap.rpsCapacity limits
  obtain ⟨remaining, reads', month', rate'⟩ :=
    pair_reads snap first "x-ratelimit-remaining" snap.slotsAvailableNow remainings
  have kept : second.Reads "x-ratelimit-limit" limit := reads.setHeader (by decide) _
  have reads := (kept.setHeader (by decide : _ ≠ "x-rotator-key") label).setHeader
    (by decide : _ ≠ "x-rotator-attempts") (toString attempts)
  have reads' := (reads'.setHeader (by decide : _ ≠ "x-rotator-key") label).setHeader
    (by decide : _ ≠ "x-rotator-attempts") (toString attempts)
  obtain ⟨info, read, ofLimit, ofRemaining⟩ := fromHeaders_of_reads reads reads'
  refine ⟨info, read, ?_⟩
  rw [ofLimit, ofRemaining]
  exact ⟨month, month', rate, rate'⟩

end Months

namespace KeyState

def capped (k : KeyState) (report : KeyState → Option Nat) : Option Nat :=
  if k.monthUnlimited then none else report k

/-- The key's plan has no monthly cap, and it has none of its own. -/
def Uncapped (k : KeyState) : Prop := k.monthLimit = some 0 ∧ k.monthlyCapOverride = none

theorem monthUnlimited_iff (k : KeyState) : k.monthUnlimited = true ↔ k.Uncapped := by
  unfold monthUnlimited Uncapped
  cases k.monthlyCapOverride with
  | none => simp
  | some cap => simp

end KeyState

section Totals

theorem foldl_addTotal (ms : List (Option Nat)) (total : Option Nat) :
    ms.foldl addTotal total =
      if ms.filterMap id = [] then total
      else some (wrapU64 (total.getD 0 + (ms.filterMap id).sum)) := by
  induction ms generalizing total with
  | nil => rfl
  | cons m ms ih =>
    rw [List.foldl_cons, ih]
    cases m with
    | none => rfl
    | some m =>
      have first : (some m :: ms).filterMap id = m :: ms.filterMap id := List.filterMap_cons_some rfl
      rw [first, if_neg (List.cons_ne_nil _ _), List.sum_cons]
      by_cases none : ms.filterMap id = []
      · rw [if_pos none, none]
        rfl
      · rw [if_neg none]
        show some (wrapU64 (wrapU64 (total.getD 0 + m) + _)) = _
        unfold wrapU64
        rw [Nat.mod_add_mod, Nat.add_assoc]

theorem visit_months (host : Host) (out : PoolSnapshot) (k : KeyState) (now : Instant)
    (avail : Except Instant Unit) :
    (out.visit host k now avail).monthLimitTotal =
        addTotal out.monthLimitTotal (k.capped KeyState.monthLimit) ∧
      (out.visit host k now avail).monthRemainingTotal =
        addTotal out.monthRemainingTotal (k.capped KeyState.monthRemaining) ∧
      (out.visit host k now avail).monthUnlimitedKeys =
        out.monthUnlimitedKeys + if k.health.isOk && k.monthUnlimited then 1 else 0 := by
  unfold PoolSnapshot.visit KeyState.capped
  cases k.health.isOk with
  | true => cases k.monthUnlimited <;> exact ⟨rfl, rfl, rfl⟩
  | false => cases k.monthUnlimited <;> exact ⟨rfl, rfl, rfl⟩

theorem snapshotFrom_months (host : Host) (now : Instant) (window : Duration) (out : PoolSnapshot)
    (ks : List KeyState) :
    (snapshotFrom host now window out ks).2.monthLimitTotal =
        (ks.map fun k => (k.refresh now).capped KeyState.monthLimit).foldl addTotal
          out.monthLimitTotal ∧
      (snapshotFrom host now window out ks).2.monthRemainingTotal =
        (ks.map fun k => (k.refresh now).capped KeyState.monthRemaining).foldl addTotal
          out.monthRemainingTotal ∧
      (snapshotFrom host now window out ks).2.monthUnlimitedKeys =
        out.monthUnlimitedKeys +
          ks.countP fun k => (k.refresh now).health.isOk && (k.refresh now).monthUnlimited := by
  induction ks generalizing out with
  | nil => exact ⟨rfl, rfl, rfl⟩
  | cons k ks ih =>
    obtain ⟨_, _, fields⟩ := (k.refresh now).availability_fields now window
    obtain ⟨limit, remaining, unlimited⟩ := visit_months host out
      ((k.refresh now).availability now window).1 now ((k.refresh now).availability now window).2
    obtain ⟨limits, remainings, unlimiteds⟩ := ih (out.visit host
      ((k.refresh now).availability now window).1 now ((k.refresh now).availability now window).2)
    rw [fields] at limit remaining unlimited
    unfold snapshotFrom
    refine ⟨limits.trans ?_, remainings.trans ?_, unlimiteds.trans ?_⟩
    · rw [fields, limit]
      rfl
    · rw [fields, remaining]
      rfl
    · rw [fields, unlimited, List.countP_cons, Nat.add_assoc, Nat.add_comm (ks.countP _)]
      rfl

end Totals

namespace Pool

variable (p : Pool) (now : Instant)

/-- What the keys with a monthly cap report, those that say nothing apart. -/
def reports (report : KeyState → Option Nat) : List Nat :=
  p.keys.filterMap fun k => (k.refresh now).capped report

/-- Some numbers, and a `u64` that adds them up is 0. -/
def AddUpToZero (vs : List Nat) : Prop := vs ≠ [] ∧ wrapU64 vs.sum = 0

theorem total_le {ms : List (Option Nat)} {n : Nat} (total : ms.foldl addTotal none = some n) :
    n ≤ u64Max := by
  rw [foldl_addTotal] at total
  split at total
  · cases total
  · cases total
    exact Nat.le_of_lt_succ (Nat.mod_lt _ (by decide))

theorem total_eq_zero_iff (report : KeyState → Option Nat) :
    (p.keys.map fun k => (k.refresh now).capped report).foldl addTotal none = some 0 ↔
      AddUpToZero (p.reports now report) := by
  have reports : (p.keys.map fun k => (k.refresh now).capped report).filterMap id =
      p.reports now report := by
    rw [List.filterMap_map]
    rfl
  rw [foldl_addTotal, reports]
  unfold AddUpToZero
  by_cases none : p.reports now report = []
  · rw [if_pos none]
    exact iff_of_false nofun fun zero => zero.1 none
  · rw [if_neg none, Option.some.injEq, Option.getD_none, Nat.zero_add]
    exact (and_iff_right none).symm

theorem snapshot_months :
    (p.snapshot now).2.monthLimitTotal =
        (p.keys.map fun k => (k.refresh now).capped KeyState.monthLimit).foldl addTotal none ∧
      (p.snapshot now).2.monthRemainingTotal =
        (p.keys.map fun k => (k.refresh now).capped KeyState.monthRemaining).foldl addTotal none ∧
      (p.snapshot now).2.monthUnlimitedKeys =
        p.keys.countP fun k => (k.refresh now).health.isOk && (k.refresh now).monthUnlimited := by
  obtain ⟨limit, remaining, unlimited⟩ := snapshotFrom_months p.host now p.window
    { now := p.host.fmtInstant now, keysTotal := p.keys.length } p.keys
  exact ⟨limit, remaining, unlimited.trans (Nat.zero_add _)⟩

theorem unlimited_iff :
    0 < (p.snapshot now).2.monthUnlimitedKeys ↔ ∃ k ∈ p.keys, k.Healthy now ∧ k.Uncapped := by
  rw [(p.snapshot_months now).2.2, List.countP_pos_iff]
  refine exists_congr fun k => and_congr_right fun _ => ?_
  obtain ⟨_, _, _, fields⟩ := k.refresh_fields now
  have same : (k.refresh now).Uncapped ↔ k.Uncapped := by
    rw [fields]
    exact Iff.rfl
  rw [Bool.and_eq_true, Health.isOk_iff, KeyState.refresh_ok_iff, KeyState.monthUnlimited_iff, same]

/-- Read in Brave's own way, the headers say that there is no monthly cap just when a healthy key has
    none, and that the month is used up only when no key is healthy. -/
def TellsTruth (h : HeaderMap) : Prop :=
  ∃ info, RateLimitInfo.fromHeaders h = some info ∧
    (info.limit.month = some 0 ↔ ∃ k ∈ p.keys, k.Healthy now ∧ k.Uncapped) ∧
    (info.monthExhausted = true → ∀ k ∈ p.keys, ¬ k.Healthy now)

/-- The totals that are shown do not stand for anything else. -/
def TotalsTell : Prop :=
  (∃ k ∈ p.keys, k.Healthy now ∧ k.Uncapped) ∨
    (¬ AddUpToZero (p.reports now KeyState.monthLimit) ∧
      (AddUpToZero (p.reports now KeyState.monthRemaining) → ∀ k ∈ p.keys, ¬ k.Healthy now))

theorem tellsTruth_iff (up : UpstreamResponse) (label : String) (attempts : Nat) :
    p.TellsTruth now (buildResponse p now up label attempts).2.headers ↔ p.TotalsTell now := by
  obtain ⟨limits, remainings, -⟩ := p.snapshot_months now
  obtain ⟨info, read, limit, remaining, -⟩ := buildResponse_reads p now up label attempts
    (fun n total => total_le (limits.symm.trans total))
    (fun n total => total_le (remainings.symm.trans total))
  have unlimited := p.unlimited_iff now
  have limitZero : (p.snapshot now).2.monthLimitTotal = some 0 ↔ _ :=
    limits ▸ p.total_eq_zero_iff now KeyState.monthLimit
  have remainingZero : (p.snapshot now).2.monthRemainingTotal = some 0 ↔ _ :=
    remainings ▸ p.total_eq_zero_iff now KeyState.monthRemaining
  unfold TellsTruth TotalsTell RateLimitInfo.monthExhausted
  rw [read]
  simp only [Option.some.injEq, exists_eq_left', limit, remaining]
  unfold shownMonth
  by_cases some_ : 0 < (p.snapshot now).2.monthUnlimitedKeys
  · have uncapped := unlimited.mp some_
    simp only [if_pos some_, if_true, Bool.false_eq_true, false_imp_iff, and_true, true_iff]
    exact iff_of_true uncapped (.inl uncapped)
  · have capped : ¬ ∃ k ∈ p.keys, k.Healthy now ∧ k.Uncapped := fun uncapped =>
      some_ (unlimited.mpr uncapped)
    simp only [if_neg some_, capped, iff_false, false_or]
    rw [← limitZero, ← remainingZero]
    refine and_congr_right fun apart => ?_
    rw [if_neg apart, decide_eq_true_eq]

/-- In every reachable state, the headers tell the truth exactly when the totals behind them do. -/
theorem headers_truthful_iff (host : Host) (tokens : List String) (cfg : PoolConfig) (cs : List Call)
    (now : Instant) (up : UpstreamResponse) (label : String) (attempts : Nat) :
    ((new host tokens cfg).after cs).TellsTruth now
        (buildResponse ((new host tokens cfg).after cs) now up label attempts).2.headers ↔
      ((new host tokens cfg).after cs).TotalsTell now :=
  ((new host tokens cfg).after cs).tellsTruth_iff now up label attempts

/-- The first of two keys has used up its month, the second has not been used yet. -/
def firstSpent : Pool :=
  (ofTests ["first", "second"] []).after
    [.tryAcquire 0 [],
      .record 1 0 (.response 200
        (some { limit := { month := some 1000 }, remaining := { month := some 0 } }) none)]

/-- A key with a cap of its own, whose plan has none. -/
def ownCap : Pool :=
  (ofTests ["first"] [some 1000]).after
    [.tryAcquire 0 [],
      .record 1 0 (.response 200
        (some { limit := { month := some 0 }, remaining := { month := some 0 } }) none)]

def bareOk : UpstreamResponse := { status := 200, headers := ⟨[], List.nodup_nil⟩, body := [] }

/-- The month of `firstSpent` reads as used up, and that of `ownCap` as unlimited. -/
theorem totals_mislead :
    ¬ firstSpent.TellsTruth 2 (buildResponse firstSpent 2 bareOk "k1:..irst" 1).2.headers ∧
      ¬ ownCap.TellsTruth 2 (buildResponse ownCap 2 bareOk "k1:..irst" 1).2.headers := by
  constructor
  · rintro ⟨info, read, -, sick⟩
    have exhausted : (RateLimitInfo.fromHeaders
        (buildResponse firstSpent 2 bareOk "k1:..irst" 1).2.headers).map RateLimitInfo.monthExhausted =
          some true := by decide
    rw [read] at exhausted
    have healthy : ∃ k ∈ firstSpent.keys, k.Healthy 2 := by decide
    obtain ⟨k, member, ok⟩ := healthy
    exact sick (Option.some.inj exhausted) k member ok
  · rintro ⟨info, read, month, -⟩
    have unlimited : (RateLimitInfo.fromHeaders
        (buildResponse ownCap 2 bareOk "k1:..irst" 1).2.headers).map (·.limit.month) =
          some (some 0) := by decide
    rw [read] at unlimited
    obtain ⟨k, member, -, -, noCap⟩ := month.mp (Option.some.inj unlimited)
    have capped : ∀ k ∈ ownCap.keys, k.monthlyCapOverride = some 1000 := by decide
    have cap := capped k member
    rw [noCap] at cap
    cases cap

end Pool

end BraveRotator
