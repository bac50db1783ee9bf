import BraveRotator.Lib.MultiMap
import BraveRotator.Lib.Text

namespace BraveRotator

/-- As the `http` crate keeps names: in lower case. -/
abbrev HeaderName := String

abbrev HeaderValue := List UInt8

abbrev HeaderMap := MultiMap HeaderName HeaderValue

namespace HeaderValue

def utf8 (s : List Char) : List UInt8 := s.flatMap String.utf8EncodeChar

/-- The bytes that a value may have. -/
def isValid (b : UInt8) : Bool := decide ((32 ≤ b.toNat ∧ b.toNat ≠ 127) ∨ b.toNat = 9)

def isVisibleAscii (b : UInt8) : Bool := decide ((32 ≤ b.toNat ∧ b.toNat < 127) ∨ b.toNat = 9)

/-- `HeaderValue::from_str` -/
def fromStr (s : List Char) : Option HeaderValue :=
  if (utf8 s).all isValid then some (utf8 s) else none

/-- `HeaderValue::to_str` -/
def toStr (v : HeaderValue) : Option (List Char) :=
  if v.all isVisibleAscii then some (v.map fun b => Char.ofNat b.toNat) else none

/-- Characters that a value shows as they are. -/
def Plain (c : Char) : Prop := 32 ≤ c.toNat ∧ c.toNat < 127

theorem utf8_of_plain {s : List Char} (plain : ∀ c ∈ s, Plain c) :
    utf8 s = s.map fun c => UInt8.ofNat c.toNat := by
  unfold utf8
  induction s with
  | nil => rfl
  | cons c s ih =>
    have small : c.utf8Size = 1 := by
      have bound := (plain c List.mem_cons_self).2
      unfold Char.utf8Size
      rw [if_pos]
      show c.toNat ≤ 127
      omega
    rw [List.flatMap_cons, ih fun c member => plain c (List.mem_cons_of_mem _ member),
      String.utf8EncodeChar_eq_singleton small]
    rfl

theorem toNat_ofNat_of_plain {c : Char} (plain : Plain c) : (UInt8.ofNat c.toNat).toNat = c.toNat := by
  have bound := plain.2
  rw [UInt8.toNat_ofNat']
  omega

theorem toStr_of_plain {s : List Char} (plain : ∀ c ∈ s, Plain c) :
    ∃ v, fromStr s = some v ∧ toStr v = some s := by
  have visible : ∀ c ∈ s, isVisibleAscii (UInt8.ofNat c.toNat) = true := by
    intro c member
    have range := plain c member
    unfold isVisibleAscii
    rw [decide_eq_true_eq, toNat_ofNat_of_plain range]
    exact .inl range
  have valid : (utf8 s).all isValid = true := by
    rw [utf8_of_plain plain, List.all_map, List.all_eq_true]
    intro c member
    have range := plain c member
    unfold isValid
    rw [Function.comp_apply, decide_eq_true_eq, toNat_ofNat_of_plain range]
    exact .inl ⟨range.1, Nat.ne_of_lt range.2⟩
  have shown : (utf8 s).all isVisibleAscii = true := by
    rw [utf8_of_plain plain, List.all_map]
    exact List.all_eq_true.mpr visible
  refine ⟨utf8 s, if_pos valid, ?_⟩
  unfold toStr
  rw [if_pos shown, utf8_of_plain plain, List.map_map]
  refine congrArg some ((List.map_congr_left fun c member => ?_).trans (List.map_id s))
  rw [Function.comp_apply, toNat_ofNat_of_plain (plain c member), Char.ofNat_toNat]
  rfl

end HeaderValue

/-- A piece of a body, or what went wrong instead of it. -/
abbrev Frame := Except String (List UInt8)

/-- What `Limited` lets through of a body, all at once. -/
def collectLimited (limit : Nat) : List Frame → Except String (List UInt8)
  | [] => .ok []
  | .error e :: _ => .error e
  | .ok data :: frames =>
    if limit < data.length then .error "length limit exceeded"
    else (collectLimited (limit - data.length) frames).map (data ++ ·)

end BraveRotator
