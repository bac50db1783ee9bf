import Mathlib.Tactic.Common

/-! Percent-encoding of bytes, with `+` for a space. -/

namespace Percent

def digit? (b : UInt8) : Option Nat :=
  if 48 ≤ b.toNat ∧ b.toNat ≤ 57 then some (b.toNat - 48)
  else if 97 ≤ b.toNat ∧ b.toNat ≤ 102 then some (b.toNat - 87)
  else if 65 ≤ b.toNat ∧ b.toNat ≤ 70 then some (b.toNat - 55)
  else none

/-- The byte that two hex digits stand for. -/
def escaped? (h l : UInt8) : Option UInt8 :=
  (digit? h).bind fun h => (digit? l).map fun l => UInt8.ofNat (16 * h + l)

def plus : UInt8 := 0x2B

def percent : UInt8 := 0x25

def space : UInt8 := 0x20

def unplus (b : UInt8) : UInt8 := if b = plus then space else b

/-- Escapes become the bytes that they stand for, and all else but `+` stays as it is. -/
def decode : List UInt8 → List UInt8
  | [] => []
  | [b] => [unplus b]
  | [b, c] => unplus b :: decode [c]
  | b :: h :: l :: tail =>
    match if b = percent then escaped? h l else none with
    | some e => e :: decode tail
    | none => unplus b :: decode (h :: l :: tail)

def StartsEscaped : List UInt8 → Prop
  | h :: l :: _ => escaped? h l ≠ none
  | _ => False

/-- The text is an encoding of the bytes, in which no reserved byte stands for itself. -/
inductive Encodes (reserved : UInt8 → Prop) : List UInt8 → List UInt8 → Prop
  | nil : Encodes reserved [] []
  | escape {h l b : UInt8} {bytes text : List UInt8} (digits : escaped? h l = some b)
      (rest : Encodes reserved bytes text) : Encodes reserved (b :: bytes) (percent :: h :: l :: text)
  | plus {bytes text : List UInt8} (rest : Encodes reserved bytes text) :
      Encodes reserved (space :: bytes) (plus :: text)
  | literal {b : UInt8} {bytes text : List UInt8} (solid : b ≠ space) (free : ¬ reserved b)
      (rest : Encodes reserved bytes text) : Encodes reserved (b :: bytes) (b :: text)

section Decode

variable {b : UInt8} {before after rest : List UInt8}

theorem decode_escape {h l e : UInt8} (digits : escaped? h l = some e) :
    decode (percent :: h :: l :: rest) = e :: decode rest := by
  rw [decode, if_pos rfl, digits]

/-- All that does not start an escape stands for itself, or for a space. -/
theorem decode_cons (bare : b = percent → ¬ StartsEscaped rest) :
    decode (b :: rest) = unplus b :: decode rest := by
  cases rest with
  | nil => rfl
  | cons h rest =>
    cases rest with
    | nil => rfl
    | cons l tail =>
      have none : (if b = percent then escaped? h l else none) = none := by
        split
        · rename_i same
          exact not_not.mp (bare same)
        · rfl
      rw [decode, none]

theorem decode_of_encodes {reserved : UInt8 → Prop} (plus_ : reserved plus) (percent_ : reserved percent)
    {bytes text : List UInt8} (encodes : Encodes reserved bytes text) : decode text = bytes := by
  induction encodes with
  | nil => rfl
  | escape digits rest ih => rw [decode_escape digits, ih]
  | plus rest ih =>
    rw [decode_cons fun same => absurd same (by decide), ih]
    rfl
  | @literal b bytes text solid free rest ih =>
    have other : b ≠ percent := by
      rintro rfl
      exact free percent_
    have plain : b ≠ plus := by
      rintro rfl
      exact free plus_
    rw [decode_cons fun same => absurd same other, ih, unplus, if_neg plain]

theorem not_startsEscaped_of_length (short : rest.length ≤ 1) : ¬ StartsEscaped rest := by
  cases rest with
  | nil => exact not_false
  | cons h rest =>
    cases rest with
    | nil => exact not_false
    | cons l tail => cases Nat.le_of_succ_le_succ short

theorem range_of_digit (digit : digit? b ≠ none) :
    (48 ≤ b.toNat ∧ b.toNat ≤ 57) ∨ (97 ≤ b.toNat ∧ b.toNat ≤ 102) ∨
      65 ≤ b.toNat ∧ b.toNat ≤ 70 := by
  unfold digit? at digit
  split at digit
  · exact .inl ‹_›
  · split at digit
    · exact .inr (.inl ‹_›)
    · split at digit
      · exact .inr (.inr ‹_›)
      · exact absurd rfl digit

theorem low_of_digit (digit : digit? b ≠ none) : b.toNat < 0x80 := by
  have range := range_of_digit digit
  omega

theorem digits_of_escaped {h l : UInt8} (escaped : escaped? h l ≠ none) :
    digit? h ≠ none ∧ digit? l ≠ none := by
  unfold escaped? at escaped
  constructor
  · intro none
    rw [none] at escaped
    exact escaped rfl
  · intro none
    rw [none] at escaped
    cases high : digit? h with
    | none =>
      rw [high] at escaped
      exact escaped rfl
    | some d =>
      rw [high] at escaped
      exact escaped rfl

/-- A byte that is no hex digit belongs to no escape that starts before it. -/
theorem startsEscaped_append (other : digit? b = none) :
    StartsEscaped (before ++ b :: after) ↔ StartsEscaped before := by
  match before with
  | [] =>
    cases after with
    | nil => exact Iff.rfl
    | cons l tail =>
      exact iff_of_false (fun escaped => (digits_of_escaped escaped).1 other) not_false
  | [h] => exact iff_of_false (fun escaped => (digits_of_escaped escaped).2 other) not_false
  | h :: l :: tail => exact Iff.rfl

theorem decode_append (other : digit? b = none) :
    ∀ before, decode (before ++ b :: after) = decode before ++ decode (b :: after)
  | [] => rfl
  | c :: rest => by
    by_cases bare : c = percent → ¬ StartsEscaped rest
    · have bare' : c = percent → ¬ StartsEscaped (rest ++ b :: after) := by
        rw [startsEscaped_append other]
        exact bare
      rw [List.cons_append, decode_cons bare, decode_cons bare', decode_append other rest,
        List.cons_append]
    · obtain ⟨rfl, escaped⟩ := Classical.not_imp.mp bare
      match rest with
      | [] => exact absurd not_false escaped
      | [h] => exact absurd not_false escaped
      | h :: l :: tail =>
        obtain ⟨e, digits⟩ := Option.ne_none_iff_exists'.mp (not_not.mp escaped)
        have short : tail.length < (percent :: h :: l :: tail).length :=
          Nat.lt_add_of_pos_right (Nat.succ_pos 2)
        show decode (percent :: h :: l :: (tail ++ b :: after)) = _
        rw [decode_escape digits, decode_escape digits, decode_append other tail, List.cons_append]
termination_by before => before.length

/-- A `%` that does not start an escape is left in place, between what comes of the bytes before it
    and what comes of those behind it. -/
theorem decode_bare (bare : ¬ StartsEscaped after) :
    decode (before ++ percent :: after) = decode before ++ percent :: decode after := by
  have other : digit? percent = none := by decide
  rw [decode_append other, decode_cons fun _ => bare]
  rfl

/-- A reserved byte occurs in an encoding only as part of an escape or as the `+` for a space. -/
theorem notMem_of_encodes {reserved : UInt8 → Prop} {bytes text : List UInt8}
    (encodes : Encodes reserved bytes text) (kept : reserved b) (other : digit? b = none)
    (plain : b ≠ plus) (bare : b ≠ percent) : b ∉ text := by
  have digit {h l e : UInt8} (digits : escaped? h l = some e) : b ≠ h ∧ b ≠ l := by
    have both := digits_of_escaped (Option.ne_none_iff_exists'.mpr ⟨e, digits⟩)
    constructor
    · rintro rfl
      exact both.1 other
    · rintro rfl
      exact both.2 other
  induction encodes with
  | nil => exact List.not_mem_nil
  | escape digits rest ih =>
    obtain ⟨first, second⟩ := digit digits
    simp [bare, first, second, ih]
  | plus rest ih => simp [plain, ih]
  | @literal c bytes text solid free rest ih =>
    have apart : b ≠ c := by
      rintro rfl
      exact free kept
    simp [apart, ih]

end Decode

end Percent
