import BraveRotator.Proxy.PoolHeaders

namespace BraveRotator

/-- A limit as it may be written: `a`. -/
def WritesLimit (a : Nat) (item : List Char) : Prop := Padded a.repr.toList item

/-- A limit with its window: `a;w=x`. -/
def WritesPolicy (a x : Nat) (item : List Char) : Prop :=
  ∃ limit blanks window, Padded a.repr.toList limit ∧ Blank blanks ∧ Padded x.repr.toList window ∧
    item = limit ++ ';' :: (blanks ++ 'w' :: '=' :: window)

/-- The windows have the values that the parts of the text give, where they give any. -/
def Windows.Are (windows : Windows) (second month : Nat → Prop) : Prop :=
  (∀ n, windows.second = some n ↔ second n) ∧ ∀ n, windows.month = some n ↔ month n

section Reading

variable {a x n : Nat} {text item : List Char}

theorem notMem_repr {c : Char} (other : c.isDigit = false) : c ∉ n.repr.toList := by
  intro member
  rw [Text.isDigit_of_mem_repr member] at other
  cases other

theorem trim_number (padding : Padded n.repr.toList text) : Text.trim text = n.repr.toList := by
  rw [padding.trim]
  exact Text.trim_eq_self fun c member =>
    Text.isWhitespace_of_isDigit (Text.isDigit_of_mem_repr member)

theorem isNumber_padded (padding : Padded n.repr.toList text) : Text.IsNumber n (Text.trim text) := by
  rw [trim_number padding]
  exact Text.isNumber_repr n

/-- Of the blanks only those between the name and the number are left. -/
theorem trim_window {blanks window : List Char} (blank : Blank blanks)
    (padding : Padded x.repr.toList window) :
    ∃ w, Text.trim (blanks ++ 'w' :: '=' :: window) = 'w' :: '=' :: w ∧
      Text.trim w = x.repr.toList := by
  obtain ⟨before, after, ahead, behind, rfl⟩ := padding
  have number : Text.trim x.repr.toList = x.repr.toList :=
    Text.trim_eq_self fun c member => Text.isWhitespace_of_isDigit (Text.isDigit_of_mem_repr member)
  have last : ∀ c ∈ ('w' :: '=' :: (before ++ x.repr.toList)).getLast?, c.isDigit = true := by
    have nonempty : x.repr.toList ≠ [] := by
      rw [Nat.toList_repr]
      exact Nat.toDigits_ne_nil
    intro c last
    rw [← List.cons_append, ← List.cons_append, List.getLast?_append_of_ne_nil _ nonempty] at last
    exact Text.isDigit_of_mem_repr (List.mem_of_getLast? last)
  refine ⟨before ++ x.repr.toList, ?_, ?_⟩
  · rw [Text.trim_append_left blank.isWhitespace, ← List.append_assoc, ← List.cons_append,
      ← List.cons_append, Text.trim_append_right _ behind.isWhitespace]
    refine Text.trim_eq_self_of_ends ?_ fun c end_ => Text.isWhitespace_of_isDigit (last c end_)
    intro c first
    cases first
    decide
  · rw [Text.trim_append_left ahead.isWhitespace, number]

theorem WritesLimit.comma (writes : WritesLimit a item) : ',' ∉ item :=
  Padded.notMem writes (by decide) (notMem_repr (by decide))

theorem WritesPolicy.comma (writes : WritesPolicy a x item) : ',' ∉ item := by
  obtain ⟨limit, blanks, window, padding, blank, padding', rfl⟩ := writes
  have free := padding.notMem (by decide) (notMem_repr (n := a) (c := ',') (by decide))
  have free' := blank.notMem (c := ',') (by decide)
  have free'' := padding'.notMem (by decide) (notMem_repr (n := x) (c := ',') (by decide))
  simp [free, free', free'']

theorem WritesLimit.gives (writes : WritesLimit a item) (le : a ≤ u64Max) : GivesLimit item a := by
  have free : ';' ∉ item := Padded.notMem writes (by decide) (notMem_repr (by decide))
  have whole : item.takeWhile (· ≠ ';') = item := by
    rw [List.takeWhile_eq_self_iff]
    intro c member
    rw [decide_eq_true_iff]
    rintro rfl
    exact free member
  unfold GivesLimit
  rw [whole]
  exact ⟨isNumber_padded writes, le⟩

theorem WritesPolicy.gives (writes : WritesPolicy a x item) (le : a ≤ u64Max) (le' : x ≤ u64Max) :
    GivesLimit item a ∧ GivesWindow item x := by
  obtain ⟨limit, blanks, window, padding, blank, padding', rfl⟩ := writes
  have free : ∀ c ∈ limit, c ≠ ';' := by
    rintro c member rfl
    exact padding.notMem (by decide) (notMem_repr (by decide)) member
  have free' : ∀ c ∈ blanks ++ 'w' :: '=' :: window, c ≠ ';' := by
    rintro c member rfl
    have one := blank.notMem (c := ';') (by decide)
    have two := padding'.notMem (by decide) (notMem_repr (n := x) (c := ';') (by decide))
    simp [one, two] at member
  constructor
  · have cut : (limit ++ ';' :: (blanks ++ 'w' :: '=' :: window)).takeWhile (· ≠ ';') = limit := by
      rw [List.takeWhile_append_of_pos fun c member => decide_eq_true (free c member)]
      simp
    unfold GivesLimit
    rw [cut]
    exact ⟨isNumber_padded padding, le⟩
  · have parts : (limit ++ ';' :: (blanks ++ 'w' :: '=' :: window)).splitOnP (· = ';') =
        [limit, blanks ++ 'w' :: '=' :: window] := by
      rw [List.splitOnP_append_cons_of_forall_mem (fun c member => decide_eq_false (free c member)) ';'
          (decide_eq_true rfl),
        List.splitOnP_eq_singleton fun c member => decide_eq_false (free' c member)]
    obtain ⟨w, named, number⟩ := trim_window blank padding'
    refine ⟨[Text.trim limit], w, [], ?_, ?_, number ▸ Text.isNumber_repr x, le'⟩
    · rw [parts, List.map_cons, List.map_cons, List.map_nil, named]
      rfl
    · intro kv member named
      rw [List.mem_singleton] at member
      rw [member, trim_number padding] at named
      exact notMem_repr (n := a) (c := 'w') (by decide) (named.subset List.mem_cons_self)

theorem are_of_reads {read : List Char → Option Nat} {gives : List Char → Nat → Prop}
    (reads : ∀ item n, read item = some n ↔ gives item n) {first second : List Char}
    (free : ',' ∉ first) (free' : ',' ∉ second) (further : List (List Char)) :
    (windowsOf read (joined first second further)).Are (gives first) (gives second) ∧
      (windowsOf read first).Are (gives first) fun _ => False := by
  rw [windowsOf_joined read free free', windowsOf_single read free]
  refine ⟨⟨reads first, reads second⟩, reads first, ?_⟩
  intro n
  exact iff_of_false (by rintro ⟨⟩) not_false

end Reading

/-- Limits and windows are read as they may be written, each from its own item alone; and so are the
    values that the pool writes of itself. -/
theorem windows_read_back :
    (∀ (a b x y : Text.UpTo u64Max) (first second : List Char) (further : List (List Char)),
      (WritesLimit a first → WritesLimit b second →
        parseWindows (joined first second further) = { second := some a, month := some b }) ∧
      (WritesPolicy a x first → WritesPolicy b y second →
        parseWindows (joined first second further) = { second := some a, month := some b } ∧
        parsePolicyWindows (joined first second further) = { second := some x, month := some y })) ∧
    (∀ (first second : List Char) (further : List (List Char)), ',' ∉ first → ',' ∉ second →
      ((parseWindows (joined first second further)).Are (GivesLimit first) (GivesLimit second) ∧
        (parseWindows first).Are (GivesLimit first) fun _ => False) ∧
      (parsePolicyWindows (joined first second further)).Are (GivesWindow first) (GivesWindow second) ∧
        (parsePolicyWindows first).Are (GivesWindow first) fun _ => False) ∧
    (∀ (p : Pool) (now : Instant) (up : UpstreamResponse) (label : String) (attempts : Nat),
      let snap := (p.snapshot now).2
      snap.rpsCapacity ≤ u64Max → snap.slotsAvailableNow ≤ u64Max →
        ∃ info, RateLimitInfo.fromHeaders (buildResponse p now up label attempts).2.headers = some info ∧
          info.limit =
            { second := some snap.rpsCapacity, month := shownMonth snap snap.monthLimitTotal } ∧
          info.remaining =
            { second := some snap.slotsAvailableNow
              month := shownMonth snap snap.monthRemainingTotal }) := by
  refine ⟨?_, ?_, ?_⟩
  · intro a b x y first second further
    constructor
    · intro writes writes'
      have limit := limitOf_eq_some_iff.mpr (writes.gives a.property)
      have limit' := limitOf_eq_some_iff.mpr (writes'.gives b.property)
      rw [← limit, ← limit']
      exact windowsOf_joined limitOf writes.comma writes'.comma further
    · intro writes writes'
      obtain ⟨limit, window⟩ := writes.gives a.property x.property
      obtain ⟨limit', window'⟩ := writes'.gives b.property y.property
      rw [← limitOf_eq_some_iff] at limit limit'
      rw [← windowOf_eq_some_iff] at window window'
      rw [← limit, ← limit', ← window, ← window']
      exact ⟨windowsOf_joined limitOf writes.comma writes'.comma further,
        windowsOf_joined windowOf writes.comma writes'.comma further⟩
  · intro first second further free free'
    exact ⟨are_of_reads (fun _ _ => limitOf_eq_some_iff) free free' further,
      are_of_reads (fun _ _ => windowOf_eq_some_iff) free free' further⟩
  · intro p now up label attempts snap small small'
    obtain ⟨limits, remainings, -⟩ := p.snapshot_months now
    obtain ⟨info, read, month, month', rate, rate'⟩ := buildResponse_reads p now up label attempts
      (fun n total => Pool.total_le (limits.symm.trans total))
      (fun n total => Pool.total_le (remainings.symm.trans total))
    refine ⟨info, read, ?_, ?_⟩
    · rw [← rate small, ← month]
    · rw [← rate' small', ← month']

/-- The texts of the tests, one with a tab and a third item, one without a first number, and what the
    pool writes before its first request. -/
theorem documented_read_back :
    parseWindows "1, 15000".toList = { second := some 1, month := some 15000 } ∧
    parsePolicyWindows "1 ;\tw=1, 15000;w= 2592000,".toList =
      { second := some 1, month := some 2592000 } ∧
    (parseWindows "x,1".toList).month = some 1 ∧
    ∃ info, RateLimitInfo.fromHeaders (buildResponse (Pool.ofTests ["key"] []) 0
        { status := 200, headers := MultiMap.empty, body := [] } "k1" 1).2.headers = some info ∧
      info.limit = { second := some 1, month := none } := by
  have blank : Blank [] := by simp [Blank]
  have space : Blank [' '] := by simp [Blank]
  have tab : Blank ['\t'] := by simp [Blank]
  have first : Padded (Nat.repr 1).toList "1".toList := ⟨[], [], blank, blank, by decide⟩
  have first' : Padded (Nat.repr 1).toList "1 ".toList := ⟨[], [' '], blank, space, by decide⟩
  have second : Padded (Nat.repr 15000).toList " 15000".toList := ⟨[' '], [], space, blank, by decide⟩
  have window : Padded (Nat.repr 2592000).toList " 2592000".toList :=
    ⟨[' '], [], space, blank, by decide⟩
  refine ⟨?_, ?_, ?_, ?_⟩
  · exact (windows_read_back.1 ⟨1, by decide⟩ ⟨15000, by decide⟩ ⟨1, by decide⟩ ⟨1, by decide⟩
      "1".toList " 15000".toList []).1 first second
  · exact ((windows_read_back.1 ⟨1, by decide⟩ ⟨15000, by decide⟩ ⟨1, by decide⟩
      ⟨2592000, by decide⟩ "1 ;\tw=1".toList " 15000;w= 2592000".toList [[]]).2
      ⟨"1 ".toList, ['\t'], "1".toList, first', tab, first, rfl⟩
      ⟨" 15000".toList, [], " 2592000".toList, second, blank, window, rfl⟩).2
  · exact ((windows_read_back.2.1 "x".toList "1".toList [] (by decide) (by decide)).1.1.2 1).mpr
      (WritesLimit.gives first (by decide))
  · obtain ⟨info, read, limit, -⟩ := windows_read_back.2.2 (Pool.ofTests ["key"] []) 0
      { status := 200, headers := MultiMap.empty, body := [] } "k1" 1 (by decide) (by decide)
    exact ⟨info, read, limit⟩

end BraveRotator
