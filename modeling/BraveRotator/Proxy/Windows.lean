import BraveRotator.Model.RateLimitHeaders

namespace BraveRotator

/-- What `parse_windows` reads in one item. -/
def limitOf (item : List Char) : Option Nat :=
  parseU64 (Text.trim (((Text.trim item).splitOnP (· = ';')).headD []))

/-- What `parse_policy_windows` reads in one item. -/
def windowOf (item : List Char) : Option Nat :=
  (((item.splitOnP (· = ';')).map Text.trim).findSome? fun kv => "w=".toList.isPrefixOf? kv).bind
    fun w => parseU64 (Text.trim w)

/-- What stands before the first semicolon, blanks aside, is the number. -/
def GivesLimit (item : List Char) (n : Nat) : Prop :=
  Text.IsNumber n (Text.trim (item.takeWhile (· ≠ ';'))) ∧ n ≤ u64Max

/-- What the first of the parts that start with `w=` has after it, blanks aside, is the number. -/
def GivesWindow (item : List Char) (n : Nat) : Prop :=
  ∃ before w after, (item.splitOnP (· = ';')).map Text.trim = before ++ ('w' :: '=' :: w) :: after ∧
    (∀ kv ∈ before, ¬ ['w', '='] <+: kv) ∧ Text.IsNumber n (Text.trim w) ∧ n ≤ u64Max

/-- An item and those behind it, with their commas. -/
def joined (first second : List Char) (further : List (List Char)) : List Char :=
  first ++ ',' :: (second ++ further.flatMap (',' :: ·))

section Items

variable {s first second : List Char} {n : Nat}

theorem parseU64_eq_some_iff : parseU64 s = some n ↔ Text.IsNumber n s ∧ n ≤ u64Max := by
  unfold parseU64
  rw [Option.map_eq_some_iff]
  constructor
  · rintro ⟨m, read, rfl⟩
    cases result : Text.parseUnsigned u64Max s with
    | error e =>
      rw [result] at read
      cases read
    | ok m' =>
      rw [result] at read
      cases read
      exact ⟨Text.parseUnsigned_ok_iff.mp result, m.property⟩
  · rintro ⟨number, le⟩
    have read : Text.parseUnsigned u64Max s = .ok ⟨n, le⟩ := Text.parseUnsigned_ok_iff.mpr number
    exact ⟨⟨n, le⟩, by rw [read]; rfl, rfl⟩

theorem parseU64_repr (le : n ≤ u64Max) : parseU64 n.repr.toList = some n :=
  parseU64_eq_some_iff.mpr ⟨Text.isNumber_repr n, le⟩

theorem limitOf_eq_some_iff : limitOf s = some n ↔ GivesLimit s n := by
  have semicolon (c : Char) : (!decide (c = ';')) = decide (c ≠ ';') := by simp
  have solid (c : Char) (blank : Text.isWhitespace c = true) : decide (c ≠ ';') = true := by
    rw [decide_eq_true_iff]
    rintro rfl
    exact absurd blank (by decide)
  unfold limitOf
  rw [parseU64_eq_some_iff, Text.headD_splitOnP]
  simp only [semicolon]
  rw [Text.trim_takeWhile solid]
  exact Iff.rfl

theorem windowOf_eq_some_iff : windowOf s = some n ↔ GivesWindow s n := by
  have named (kv w : List Char) : "w=".toList.isPrefixOf? kv = some w ↔ kv = 'w' :: '=' :: w := by
    rw [List.isPrefixOf?_eq_some_iff_append_eq, eq_comm]
    exact Iff.rfl
  have unnamed (kv : List Char) : "w=".toList.isPrefixOf? kv = none ↔ ¬ ['w', '='] <+: kv := by
    rw [Option.eq_none_iff_forall_ne_some]
    constructor
    · rintro none ⟨w, rfl⟩
      exact none w ((named _ w).mpr rfl)
    · intro other w same
      exact other ⟨w, ((named kv w).mp same).symm⟩
  unfold windowOf
  rw [Option.bind_eq_some_iff]
  simp only [List.findSome?_eq_some_iff, parseU64_eq_some_iff]
  constructor
  · rintro ⟨w, ⟨before, kv, after, split, found, first⟩, read⟩
    rw [(named kv w).mp found] at split
    exact ⟨before, w, after, split, fun kv member => (unnamed kv).mp (first kv member), read⟩
  · rintro ⟨before, w, after, split, first, read⟩
    exact ⟨w, ⟨before, _, after, split, (named _ w).mpr rfl,
      fun kv member => (unnamed kv).mpr (first kv member)⟩, read⟩

theorem splitOnP_joined (free : ',' ∉ first) (free' : ',' ∉ second) (further : List (List Char)) :
    ∃ rest, (joined first second further).splitOnP (· = ',') = first :: second :: rest := by
  have solid {item : List Char} (free : ',' ∉ item) : ∀ c ∈ item, decide (c = ',') = false := by
    intro c member
    rw [decide_eq_false_iff_not]
    rintro rfl
    exact free member
  unfold joined
  rw [List.splitOnP_append_cons_of_forall_mem (solid free) ',' (decide_eq_true rfl)]
  cases further with
  | nil =>
    rw [List.flatMap_nil, List.append_nil, List.splitOnP_eq_singleton (solid free')]
    exact ⟨[], rfl⟩
  | cons item more =>
    rw [List.flatMap_cons, List.cons_append,
      List.splitOnP_append_cons_of_forall_mem (solid free') ',' (decide_eq_true rfl)]
    exact ⟨_, rfl⟩

theorem windowsOf_joined (read : List Char → Option Nat) (free : ',' ∉ first) (free' : ',' ∉ second)
    (further : List (List Char)) :
    windowsOf read (joined first second further) = { second := read first, month := read second } := by
  obtain ⟨rest, parts⟩ := splitOnP_joined free free' further
  unfold windowsOf
  rw [parts]
  rfl

theorem windowsOf_single (read : List Char → Option Nat) (free : ',' ∉ first) :
    windowsOf read first = { second := read first, month := none } := by
  have alone : first.splitOnP (· = ',') = [first] := by
    apply List.splitOnP_eq_singleton
    intro c member
    rw [decide_eq_false_iff_not]
    rintro rfl
    exact free member
  unfold windowsOf
  rw [alone]
  rfl

end Items

section Blanks

def Blank (s : List Char) : Prop := ∀ c ∈ s, c = ' ' ∨ c = '\t'

def Padded (text padded : List Char) : Prop :=
  ∃ before after, Blank before ∧ Blank after ∧ padded = before ++ (text ++ after)

/-- A character that neither separates values nor stands around them. -/
def Solid (c : Char) : Prop := Text.isWhitespace c = false ∧ c ≠ ',' ∧ c ≠ ';'

variable {s text padded : List Char}

theorem Blank.isWhitespace (blank : Blank s) : ∀ c ∈ s, Text.isWhitespace c = true := by
  intro c member
  rcases blank c member with rfl | rfl
  · decide
  · decide

theorem Blank.notMem (blank : Blank s) {c : Char} (solid : Text.isWhitespace c = false) : c ∉ s := by
  intro member
  rw [blank.isWhitespace c member] at solid
  cases solid

theorem Padded.trim (padding : Padded text padded) : Text.trim padded = Text.trim text := by
  obtain ⟨before, after, ahead, behind, rfl⟩ := padding
  rw [Text.trim_append_left ahead.isWhitespace, Text.trim_append_right _ behind.isWhitespace]

theorem Padded.notMem (padding : Padded text padded) {c : Char} (solid : Text.isWhitespace c = false)
    (free : c ∉ text) : c ∉ padded := by
  obtain ⟨before, after, ahead, behind, rfl⟩ := padding
  simp only [List.mem_append, not_or]
  exact ⟨ahead.notMem solid, free, behind.notMem solid⟩

theorem limitOf_padded (solid : ∀ c ∈ text, Solid c) (padding : Padded text padded) :
    limitOf padded = parseU64 text := by
  have trimmed : Text.trim text = text := Text.trim_eq_self fun c member => (solid c member).1
  have alone : text.splitOnP (· = ';') = [text] :=
    List.splitOnP_eq_singleton fun c member => decide_eq_false (solid c member).2.2
  unfold limitOf
  rw [padding.trim, trimmed, alone, List.headD_cons, trimmed]

theorem parseWindows_pair {first second : List Char} (solid : ∀ c ∈ first, Solid c)
    (solid' : ∀ c ∈ second, Solid c) :
    parseWindows (joined first (' ' :: second) []) =
      { second := parseU64 first, month := parseU64 second } := by
  have padding : Padded first first := ⟨[], [], by simp [Blank], by simp [Blank], by simp⟩
  have padding' : Padded second (' ' :: second) := ⟨[' '], [], by simp [Blank], by simp [Blank], by simp⟩
  have free : ',' ∉ first := fun comma => (solid _ comma).2.1 rfl
  have free' : ',' ∉ ' ' :: second :=
    padding'.notMem (by decide) fun comma => (solid' _ comma).2.1 rfl
  rw [← limitOf_padded solid padding, ← limitOf_padded solid' padding']
  exact windowsOf_joined limitOf free free' []

end Blanks

end BraveRotator
