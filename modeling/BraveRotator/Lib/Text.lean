import Mathlib.Data.List.DropRight
import Mathlib.Tactic.Common

/-! Text as a list of characters: blanks around it, what separators make of it, and numbers in it. -/

namespace Text

/-- Unicode's `White_Space`. -/
def isWhitespace (c : Char) : Bool :=
  decide ((0x09 ≤ c.toNat ∧ c.toNat ≤ 0x0D) ∨ c.toNat = 0x20 ∨ c.toNat = 0x85 ∨ c.toNat = 0xA0 ∨
    c.toNat = 0x1680 ∨ (0x2000 ≤ c.toNat ∧ c.toNat ≤ 0x200A) ∨ c.toNat = 0x2028 ∨
    c.toNat = 0x2029 ∨ c.toNat = 0x202F ∨ c.toNat = 0x205F ∨ c.toNat = 0x3000)

def trim (s : List Char) : List Char := (s.dropWhile isWhitespace).rdropWhile isWhitespace

def eqIgnoreAsciiCase (s t : List Char) : Bool := s.map Char.toLower = t.map Char.toLower

/-- What stands before the first separator, and what stands after it. -/
def splitOnce (sep : Char) (s : List Char) : Option (List Char × List Char) :=
  match s.dropWhile (· ≠ sep) with
  | [] => none
  | _ :: after => some (s.takeWhile (· ≠ sep), after)

inductive ParseIntError where
  | empty
  | invalidDigit
  | posOverflow
  deriving DecidableEq, Repr

def ParseIntError.text : ParseIntError → String
  | .empty => "cannot parse integer from empty string"
  | .invalidDigit => "invalid digit found in string"
  | .posOverflow => "number too large to fit in target type"

/-- A number up to `max`. -/
abbrev UpTo (max : Nat) := { n : Nat // n ≤ max }

/-- The digits after those that come to `n`. -/
def parseDigits (max : Nat) : UpTo max → List Char → Except ParseIntError (UpTo max)
  | n, [] => .ok n
  | n, c :: s =>
    if c.isDigit then
      if fits : 10 * n.val + (c.toNat - '0'.toNat) ≤ max then parseDigits max ⟨_, fits⟩ s
      else .error .posOverflow
    else .error .invalidDigit

/-- Digits after at most one `+`. -/
def parseUnsigned (max : Nat) (s : List Char) : Except ParseIntError (UpTo max) :=
  match s with
  | [] => .error .empty
  | ['+'] => .error .invalidDigit
  | '+' :: s => parseDigits max ⟨0, Nat.zero_le max⟩ s
  | s => parseDigits max ⟨0, Nat.zero_le max⟩ s

theorem toNat_of_isDigit {c : Char} (digit : c.isDigit = true) : 48 ≤ c.toNat ∧ c.toNat ≤ 57 := by
  simp only [Char.isDigit, Bool.and_eq_true, decide_eq_true_eq, UInt32.le_iff_toNat_le,
    ge_iff_le] at digit
  exact digit

theorem isDigit_of_mem_repr {n : Nat} {c : Char} (member : c ∈ n.repr.toList) : c.isDigit = true := by
  rw [Nat.toList_repr] at member
  exact Nat.isDigit_of_mem_toDigits (by decide) (by decide) member

theorem isWhitespace_of_isDigit {c : Char} (digit : c.isDigit = true) : isWhitespace c = false := by
  have range := toNat_of_isDigit digit
  unfold isWhitespace
  rw [decide_eq_false_iff_not]
  omega

theorem trim_eq_self_of_ends {s : List Char} (first : ∀ c ∈ s.head?, isWhitespace c = false)
    (last : ∀ c ∈ s.getLast?, isWhitespace c = false) : trim s = s := by
  have front : s.dropWhile isWhitespace = s := by
    cases s with
    | nil => rfl
    | cons c s =>
      have solid := first c rfl
      rw [List.dropWhile_cons, if_neg (by rw [solid]; exact Bool.false_ne_true)]
  rw [trim, front, List.rdropWhile_eq_self_iff]
  intro nonempty
  rw [last _ (List.getLast?_eq_some_getLast nonempty)]
  exact Bool.false_ne_true

theorem trim_eq_self {s : List Char} (solid : ∀ c ∈ s, isWhitespace c = false) : trim s = s :=
  trim_eq_self_of_ends (fun c first => solid c (List.mem_of_head? first))
    fun c last => solid c (List.mem_of_getLast? last)

theorem trim_cons_of_isWhitespace {c : Char} (blank : isWhitespace c = true) (s : List Char) :
    trim (c :: s) = trim s := by
  unfold trim
  rw [List.dropWhile_cons, if_pos blank]

theorem trim_append_left {blanks : List Char} (blank : ∀ c ∈ blanks, isWhitespace c = true)
    (s : List Char) : trim (blanks ++ s) = trim s := by
  induction blanks with
  | nil => rfl
  | cons c blanks ih =>
    rw [List.cons_append, trim_cons_of_isWhitespace (blank c List.mem_cons_self)]
    exact ih fun c member => blank c (List.mem_cons_of_mem _ member)

theorem trim_append_right (s : List Char) {blanks : List Char}
    (blank : ∀ c ∈ blanks, isWhitespace c = true) : trim (s ++ blanks) = trim s := by
  unfold trim
  rw [List.dropWhile_append]
  cases front : s.dropWhile isWhitespace with
  | nil =>
    have none : blanks.dropWhile isWhitespace = [] := List.dropWhile_eq_nil_iff.mpr blank
    rw [List.isEmpty_nil, if_pos rfl, none]
  | cons c rest =>
    rw [List.isEmpty_cons, if_neg Bool.false_ne_true]
    induction blanks using List.reverseRecOn with
    | nil => rw [List.append_nil]
    | append_singleton blanks b ih =>
      rw [← List.append_assoc, List.rdropWhile_concat_pos _ _ _ (blank b (by simp))]
      exact ih fun c member => blank c (List.mem_append_left _ member)

theorem exists_blanks (s : List Char) :
    ∃ front back, (∀ c ∈ front, isWhitespace c = true) ∧ (∀ c ∈ back, isWhitespace c = true) ∧
      s = front ++ (trim s ++ back) := by
  refine ⟨s.takeWhile isWhitespace, (s.dropWhile isWhitespace).rtakeWhile isWhitespace, ?_, ?_, ?_⟩
  · exact fun c member => List.mem_takeWhile_imp member
  · exact fun c member => List.mem_rtakeWhile_imp member
  · unfold trim
    rw [List.rdropWhile_append_rtakeWhile, List.takeWhile_append_dropWhile]

theorem trim_takeWhile {keep : Char → Bool} (blanks : ∀ c, isWhitespace c = true → keep c = true)
    (s : List Char) : trim ((trim s).takeWhile keep) = trim (s.takeWhile keep) := by
  obtain ⟨front, back, ahead, behind, split⟩ := exists_blanks s
  generalize trim s = t at split
  rw [split, List.takeWhile_append_of_pos fun c member => blanks c (ahead c member),
    trim_append_left ahead, List.takeWhile_append]
  split
  · rename_i whole
    have all : t.takeWhile keep = t := (List.takeWhile_prefix keep).eq_of_length whole
    rw [all, List.takeWhile_eq_self_iff.mpr fun c member => blanks c (behind c member),
      trim_append_right t behind]
  · rfl

theorem splitOnce_append {sep : Char} {before : List Char} (free : sep ∉ before) (after : List Char) :
    splitOnce sep (before ++ sep :: after) = some (before, after) := by
  have kept : ∀ c ∈ before, decide (c ≠ sep) = true := by
    intro c member
    rw [decide_eq_true_iff]
    rintro rfl
    exact free member
  unfold splitOnce
  rw [List.dropWhile_append_of_pos kept, List.takeWhile_append_of_pos kept]
  simp

theorem headD_splitOnP (sep : Char → Bool) (s : List Char) :
    (s.splitOnP sep).headD [] = s.takeWhile fun c => !sep c := by
  induction s with
  | nil => rfl
  | cons c s ih =>
    rw [List.splitOnP_cons_eq_if_modifyHead, List.takeWhile_cons]
    cases sep c with
    | true => rfl
    | false =>
      obtain ⟨head, tail, parts⟩ := List.exists_cons_of_ne_nil (List.splitOnP_ne_nil sep s)
      rw [parts] at ih ⊢
      exact congrArg (c :: ·) ih

theorem isWhitespace_of_trim_nil {s : List Char} (blank : trim s = []) :
    ∀ c ∈ s, isWhitespace c = true := by
  have white := List.rdropWhile_eq_nil_iff.mp blank
  have none : s.dropWhile isWhitespace = [] := by
    by_contra nonempty
    have solid := List.head_dropWhile_not isWhitespace nonempty
    rw [white _ (List.head_mem nonempty)] at solid
    cases solid
  exact List.dropWhile_eq_nil_iff.mp none

theorem le_ofDigitChars (s : List Char) (n : Nat) : n ≤ Nat.ofDigitChars 10 s n := by
  induction s generalizing n with
  | nil => rw [Nat.ofDigitChars_nil]
  | cons c s ih =>
    have next := ih (10 * n + (c.toNat - '0'.toNat))
    rw [Nat.ofDigitChars_cons]
    omega

theorem parseDigits_ok_iff {max : Nat} {s : List Char} {n m : UpTo max} :
    parseDigits max n s = .ok m ↔
      (∀ c ∈ s, c.isDigit = true) ∧ Nat.ofDigitChars 10 s n.val = m.val := by
  induction s generalizing n with
  | nil =>
    rw [parseDigits, Except.ok.injEq, Nat.ofDigitChars_nil, ← Subtype.ext_iff]
    exact (and_iff_right fun c member => absurd member List.not_mem_nil).symm
  | cons c s ih =>
    rw [parseDigits, List.forall_mem_cons, Nat.ofDigitChars_cons]
    split
    · rename_i digit
      split
      · rename_i fits
        rw [ih, and_iff_right digit]
      · rename_i large
        refine iff_of_false (by rintro ⟨⟩) ?_
        rintro ⟨-, value⟩
        have le := le_ofDigitChars s (10 * n.val + (c.toNat - '0'.toNat))
        have bound := m.property
        omega
    · rename_i other
      exact iff_of_false (by rintro ⟨⟩) fun both => other both.1.1

/-- Digits that come to `n`, after at most one `+`. -/
def IsNumber (n : Nat) (s : List Char) : Prop :=
  ∃ digits, digits ≠ [] ∧ (∀ c ∈ digits, c.isDigit = true) ∧ Nat.ofDigitChars 10 digits 0 = n ∧
    (s = digits ∨ s = '+' :: digits)

theorem plus_not_digit {digits : List Char} (all : ∀ c ∈ digits, c.isDigit = true) (s : List Char) :
    '+' :: s ≠ digits := by
  rintro rfl
  exact absurd (all '+' List.mem_cons_self) (by decide)

theorem parseUnsigned_ok_iff {max : Nat} {s : List Char} {m : UpTo max} :
    parseUnsigned max s = .ok m ↔ IsNumber m.val s := by
  unfold parseUnsigned IsNumber
  split
  · refine iff_of_false (by rintro ⟨⟩) ?_
    rintro ⟨digits, nonempty, -, -, rfl | signed⟩
    · exact nonempty rfl
    · cases signed
  · refine iff_of_false (by rintro ⟨⟩) ?_
    rintro ⟨digits, nonempty, all, -, plain | signed⟩
    · exact plus_not_digit all [] plain
    · exact nonempty (List.cons_eq_cons.mp signed).2.symm
  · rename_i s more
    rw [parseDigits_ok_iff]
    constructor
    · rintro ⟨all, value⟩
      exact ⟨s, fun empty => more (by rw [empty]), all, value, .inr rfl⟩
    · rintro ⟨digits, -, all, value, plain | signed⟩
      · exact absurd plain (plus_not_digit all s)
      · obtain ⟨-, rfl⟩ := List.cons_eq_cons.mp signed
        exact ⟨all, value⟩
  · rename_i some alone unsigned
    rw [parseDigits_ok_iff]
    constructor
    · rintro ⟨all, value⟩
      exact ⟨s, some, all, value, .inl rfl⟩
    · rintro ⟨digits, -, all, value, rfl | signed⟩
      · exact ⟨all, value⟩
      · exact absurd signed (unsigned digits)

theorem isNumber_repr (n : Nat) : IsNumber n n.repr.toList := by
  refine ⟨n.repr.toList, ?_, fun _ => isDigit_of_mem_repr, ?_, .inl rfl⟩
  · rw [Nat.toList_repr]
    exact Nat.toDigits_ne_nil
  · rw [Nat.toList_repr, Nat.ofDigitChars_ten_toDigits]

end Text
