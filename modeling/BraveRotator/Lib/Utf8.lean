import Mathlib.Tactic.Common

/-! Bytes read as UTF-8, with a replacement character for each piece that is none. -/

namespace Utf8

def replacement : Char := Char.ofNat 0xFFFD

def within (low high : Nat) (b : Option UInt8) : Bool := b.any fun b => low ≤ b.toNat ∧ b.toNat ≤ high

def continues (b : Option UInt8) : Bool := within 0x80 0xBF b

/-- What may follow the first byte of three. -/
def secondOfThree (first : Nat) (b : Option UInt8) : Bool :=
  if first = 0xE0 then within 0xA0 0xBF b
  else if first = 0xED then within 0x80 0x9F b
  else continues b

def secondOfFour (first : Nat) (b : Option UInt8) : Bool :=
  if first = 0xF0 then within 0x90 0xBF b
  else if first = 0xF4 then within 0x80 0x8F b
  else continues b

def bits (b : Option UInt8) : Nat := b.elim 0 fun b => b.toNat % 64

/-- The character that starts with the byte, and how many of the bytes behind it belong to it. -/
def decodeFirst (first : Nat) (rest : List UInt8) : Char × Nat :=
  if first < 0x80 then (Char.ofNat first, 0)
  else if 0xC2 ≤ first ∧ first ≤ 0xDF then
    if continues rest[0]? then (Char.ofNat (first % 32 * 64 + bits rest[0]?), 1) else (replacement, 0)
  else if 0xE0 ≤ first ∧ first ≤ 0xEF then
    if !secondOfThree first rest[0]? then (replacement, 0)
    else if !continues rest[1]? then (replacement, 1)
    else (Char.ofNat ((first % 16 * 64 + bits rest[0]?) * 64 + bits rest[1]?), 2)
  else if 0xF0 ≤ first ∧ first ≤ 0xF4 then
    if !secondOfFour first rest[0]? then (replacement, 0)
    else if !continues rest[1]? then (replacement, 1)
    else if !continues rest[2]? then (replacement, 2)
    else (Char.ofNat
      (((first % 8 * 64 + bits rest[0]?) * 64 + bits rest[1]?) * 64 + bits rest[2]?), 3)
  else (replacement, 0)

/-- With as much fuel as there are bytes, all of them. -/
def lossyFrom : Nat → List UInt8 → List Char
  | 0, _ => []
  | _, [] => []
  | fuel + 1, b :: rest =>
    (decodeFirst b.toNat rest).1 :: lossyFrom fuel (rest.drop (decodeFirst b.toNat rest).2)

/-- `String::from_utf8_lossy` -/
def lossy (bytes : List UInt8) : List Char := lossyFrom bytes.length bytes

def encode (s : List Char) : List UInt8 := s.flatMap String.utf8EncodeChar

section Chars

theorem encodeChar_cases (c : Char) :
    (c.toNat < 0x80 ∧ String.utf8EncodeChar c = [UInt8.ofNat c.toNat]) ∨
      (0x80 ≤ c.toNat ∧ String.utf8EncodeChar c ≠ [] ∧
        ∀ b ∈ String.utf8EncodeChar c, 0x80 ≤ b.toNat) := by
  have value : c.val.toNat = c.toNat := rfl
  unfold String.utf8EncodeChar
  rw [value]
  dsimp only
  split
  · left
    exact ⟨by omega, rfl⟩
  · right
    refine ⟨by omega, ?_⟩
    split
    on_goal 2 => split
    all_goals
      refine ⟨List.cons_ne_nil _ _, ?_⟩
      simp only [List.forall_mem_cons, List.not_mem_nil, false_imp_iff, implies_true, and_true,
        UInt8.toNat_ofNat']
      omega

theorem within_some {low high : Nat} {b : UInt8} :
    within low high (some b) = true ↔ low ≤ b.toNat ∧ b.toNat ≤ high := decide_eq_true_iff

variable {first : Nat} {b c d : UInt8} {after : List UInt8}

theorem decodeFirst_two (range : 0xC2 ≤ first ∧ first ≤ 0xDF) (second : continues (some b)) :
    decodeFirst first (b :: after) = (Char.ofNat (first % 32 * 64 + b.toNat % 64), 1) := by
  unfold decodeFirst
  rw [if_neg (by omega), if_pos range, List.getElem?_cons_zero, if_pos second]
  rfl

theorem decodeFirst_three (range : 0xE0 ≤ first ∧ first ≤ 0xEF)
    (second : secondOfThree first (some b)) (third : continues (some c)) :
    decodeFirst first (b :: c :: after) =
      (Char.ofNat ((first % 16 * 64 + b.toNat % 64) * 64 + c.toNat % 64), 2) := by
  unfold decodeFirst
  rw [if_neg (by omega), if_neg (by omega), if_pos range, List.getElem?_cons_succ,
    List.getElem?_cons_zero, List.getElem?_cons_zero, second, third]
  rfl

theorem decodeFirst_four (range : 0xF0 ≤ first ∧ first ≤ 0xF4)
    (second : secondOfFour first (some b)) (third : continues (some c))
    (fourth : continues (some d)) :
    decodeFirst first (b :: c :: d :: after) =
      (Char.ofNat (((first % 8 * 64 + b.toNat % 64) * 64 + c.toNat % 64) * 64 + d.toNat % 64), 3) := by
  unfold decodeFirst
  rw [if_neg (by omega), if_neg (by omega), if_neg (by omega), if_pos range]
  simp only [List.getElem?_cons_succ, List.getElem?_cons_zero]
  rw [second, third, fourth]
  rfl

theorem continues_ofNat (v : Nat) : continues (some (UInt8.ofNat (v % 64 + 0x80))) = true := by
  unfold continues
  rw [within_some, UInt8.toNat_ofNat']
  omega

section Lengths

variable {v : Nat}

theorem secondOfThree_ofNat (low : 0x7FF < v) (valid : v < 0xD800 ∨ 0xDFFF < v) (high : v ≤ 0xFFFF) :
    secondOfThree (UInt8.ofNat (v / 4096 % 16 + 224)).toNat
      (some (UInt8.ofNat (v / 64 % 64 + 128))) = true := by
  unfold secondOfThree
  split
  · rename_i least
    rw [within_some]
    simp only [UInt8.toNat_ofNat'] at least ⊢
    omega
  · split
    · rename_i surrogates
      rw [within_some]
      simp only [UInt8.toNat_ofNat'] at surrogates ⊢
      omega
    · exact continues_ofNat (v / 64)

theorem secondOfFour_ofNat (low : 0xFFFF < v) (high : v < 0x110000) :
    secondOfFour (UInt8.ofNat (v / 262144 % 8 + 240)).toNat
      (some (UInt8.ofNat (v / 4096 % 64 + 128))) = true := by
  unfold secondOfFour
  split
  · rename_i least
    rw [within_some]
    simp only [UInt8.toNat_ofNat'] at least ⊢
    omega
  · split
    · rename_i greatest
      rw [within_some]
      simp only [UInt8.toNat_ofNat'] at greatest ⊢
      omega
    · exact continues_ofNat (v / 4096)

theorem decodeFirst_ofNat_two (low : 0x7F < v) (high : v ≤ 0x7FF) :
    decodeFirst (UInt8.ofNat (v / 64 % 32 + 192)).toNat (UInt8.ofNat (v % 64 + 128) :: after) =
      (Char.ofNat v, 1) := by
  have range : 0xC2 ≤ (UInt8.ofNat (v / 64 % 32 + 192)).toNat ∧
      (UInt8.ofNat (v / 64 % 32 + 192)).toNat ≤ 0xDF := by
    rw [UInt8.toNat_ofNat']
    omega
  have joined : (UInt8.ofNat (v / 64 % 32 + 192)).toNat % 32 * 64 +
      (UInt8.ofNat (v % 64 + 128)).toNat % 64 = v := by
    simp only [UInt8.toNat_ofNat']
    omega
  rw [decodeFirst_two range (continues_ofNat v), joined]

theorem decodeFirst_ofNat_three (low : 0x7FF < v) (valid : v < 0xD800 ∨ 0xDFFF < v)
    (high : v ≤ 0xFFFF) :
    decodeFirst (UInt8.ofNat (v / 4096 % 16 + 224)).toNat
        (UInt8.ofNat (v / 64 % 64 + 128) :: UInt8.ofNat (v % 64 + 128) :: after) =
      (Char.ofNat v, 2) := by
  have range : 0xE0 ≤ (UInt8.ofNat (v / 4096 % 16 + 224)).toNat ∧
      (UInt8.ofNat (v / 4096 % 16 + 224)).toNat ≤ 0xEF := by
    rw [UInt8.toNat_ofNat']
    omega
  have joined : ((UInt8.ofNat (v / 4096 % 16 + 224)).toNat % 16 * 64 +
      (UInt8.ofNat (v / 64 % 64 + 128)).toNat % 64) * 64 +
      (UInt8.ofNat (v % 64 + 128)).toNat % 64 = v := by
    simp only [UInt8.toNat_ofNat']
    omega
  rw [decodeFirst_three range (secondOfThree_ofNat low valid high) (continues_ofNat v), joined]

theorem decodeFirst_ofNat_four (low : 0xFFFF < v) (high : v < 0x110000) :
    decodeFirst (UInt8.ofNat (v / 262144 % 8 + 240)).toNat
        (UInt8.ofNat (v / 4096 % 64 + 128) :: UInt8.ofNat (v / 64 % 64 + 128) ::
          UInt8.ofNat (v % 64 + 128) :: after) =
      (Char.ofNat v, 3) := by
  have range : 0xF0 ≤ (UInt8.ofNat (v / 262144 % 8 + 240)).toNat ∧
      (UInt8.ofNat (v / 262144 % 8 + 240)).toNat ≤ 0xF4 := by
    rw [UInt8.toNat_ofNat']
    omega
  have joined : (((UInt8.ofNat (v / 262144 % 8 + 240)).toNat % 8 * 64 +
      (UInt8.ofNat (v / 4096 % 64 + 128)).toNat % 64) * 64 +
      (UInt8.ofNat (v / 64 % 64 + 128)).toNat % 64) * 64 +
      (UInt8.ofNat (v % 64 + 128)).toNat % 64 = v := by
    simp only [UInt8.toNat_ofNat']
    omega
  rw [decodeFirst_four range (secondOfFour_ofNat low high) (continues_ofNat (v / 64))
    (continues_ofNat v), joined]

end Lengths

/-- The bytes of a character are read back as that character, whatever follows them. -/
theorem decodeFirst_encodeChar (ch : Char) (after : List UInt8) :
    ∃ first more, String.utf8EncodeChar ch = first :: more ∧
      decodeFirst first.toNat (more ++ after) = (ch, more.length) := by
  have value : ch.val.toNat = ch.toNat := rfl
  have valid : ch.toNat < 0xD800 ∨ 0xDFFF < ch.toNat ∧ ch.toNat < 0x110000 := ch.valid
  have back : Char.ofNat ch.toNat = ch := Char.ofNat_toNat ch
  generalize ch.toNat = v at value valid back
  unfold String.utf8EncodeChar
  rw [value]
  dsimp only
  split
  · rename_i one
    have first : (UInt8.ofNat v).toNat = v := by
      rw [UInt8.toNat_ofNat']
      omega
    refine ⟨_, [], rfl, ?_⟩
    rw [first, decodeFirst, if_pos (Nat.lt_succ_of_le one), back]
    rfl
  rename_i one
  split
  · rename_i two
    refine ⟨_, [_], rfl, ?_⟩
    exact (decodeFirst_ofNat_two (Nat.lt_of_not_le one) two).trans (by rw [back]; rfl)
  rename_i two
  split
  · rename_i three
    refine ⟨_, [_, _], rfl, ?_⟩
    have scalar : v < 0xD800 ∨ 0xDFFF < v := valid.imp_right And.left
    exact (decodeFirst_ofNat_three (Nat.lt_of_not_le two) scalar three).trans (by rw [back]; rfl)
  · rename_i three
    refine ⟨_, [_, _, _], rfl, ?_⟩
    have bound : v < 0x110000 := by omega
    exact (decodeFirst_ofNat_four (Nat.lt_of_not_le three) bound).trans (by rw [back]; rfl)

end Chars

section Encode

variable {b : UInt8} {rest : List UInt8} {s : List Char}

theorem encode_eq_cons (low : b.toNat < 0x80) (bytes : encode s = b :: rest) :
    ∃ c s', s = c :: s' ∧ c.toNat = b.toNat ∧ rest = encode s' := by
  cases s with
  | nil => cases bytes
  | cons c s =>
    have split : encode (c :: s) = String.utf8EncodeChar c ++ encode s := rfl
    rw [split] at bytes
    rcases encodeChar_cases c with ⟨ascii, single⟩ | ⟨-, nonempty, high⟩
    · rw [single, List.singleton_append, List.cons.injEq] at bytes
      obtain ⟨rfl, rfl⟩ := bytes
      refine ⟨c, s, rfl, ?_, rfl⟩
      rw [UInt8.toNat_ofNat']
      omega
    · obtain ⟨first, more, shape⟩ := List.exists_cons_of_ne_nil nonempty
      rw [shape, List.cons_append, List.cons.injEq] at bytes
      have bound := high first (by rw [shape]; exact List.mem_cons_self)
      rw [bytes.1] at bound
      omega

theorem mem_encode {c : Char} (member : c ∈ s) (low : c.toNat < 0x80) :
    UInt8.ofNat c.toNat ∈ encode s := by
  unfold encode
  rw [List.mem_flatMap]
  refine ⟨c, member, ?_⟩
  rcases encodeChar_cases c with ⟨-, single⟩ | ⟨high, -⟩
  · rw [single]
    exact List.mem_singleton_self _
  · omega

end Encode

section Lossy

variable {b : UInt8} {rest before after : List UInt8}

theorem lossyFrom_eq {fuel fuel' : Nat} {bytes : List UInt8} (enough : bytes.length ≤ fuel)
    (enough' : bytes.length ≤ fuel') : lossyFrom fuel bytes = lossyFrom fuel' bytes := by
  induction fuel generalizing fuel' bytes with
  | zero =>
    rw [List.length_eq_zero_iff.mp (Nat.le_zero.mp enough)]
    cases fuel' <;> rfl
  | succ fuel ih =>
    cases bytes with
    | nil => cases fuel' <;> rfl
    | cons b rest =>
      rw [List.length_cons] at enough enough'
      have shorter : (rest.drop (decodeFirst b.toNat rest).2).length ≤ rest.length := by
        rw [List.length_drop]
        omega
      cases fuel' with
      | zero => cases enough'
      | succ fuel' =>
        rw [lossyFrom, lossyFrom, ih (by omega) (by omega : _ ≤ fuel')]

theorem lossy_cons : lossy (b :: rest) =
    (decodeFirst b.toNat rest).1 :: lossy (rest.drop (decodeFirst b.toNat rest).2) := by
  have shorter : (rest.drop (decodeFirst b.toNat rest).2).length ≤ rest.length := by
    rw [List.length_drop]
    omega
  exact congrArg _ (lossyFrom_eq shorter (Nat.le_refl _))

theorem lossy_encodeChar (c : Char) :
    lossy (String.utf8EncodeChar c ++ after) = c :: lossy after := by
  obtain ⟨first, more, bytes, decoded⟩ := decodeFirst_encodeChar c after
  rw [bytes, List.cons_append, lossy_cons, decoded, List.drop_left]

theorem lossy_encode (s : List Char) : lossy (encode s) = s := by
  induction s with
  | nil => rfl
  | cons c s ih =>
    show lossy (String.utf8EncodeChar c ++ encode s) = _
    rw [lossy_encodeChar, ih]

theorem lossy_encode_append (s : List Char) : lossy (encode s ++ after) = s ++ lossy after := by
  induction s with
  | nil => rfl
  | cons c s ih =>
    have bytes : encode (c :: s) = String.utf8EncodeChar c ++ encode s := rfl
    rw [bytes, List.append_assoc, lossy_encodeChar, ih, List.cons_append]

theorem continues_low (low : b.toNat < 0x80) (first : Nat) :
    continues (some b) = false ∧ secondOfThree first (some b) = false ∧
      secondOfFour first (some b) = false := by
  unfold secondOfThree secondOfFour continues within
  simp only [Option.any_some, decide_eq_false_iff_not]
  refine ⟨by omega, ?_, ?_⟩
  all_goals
    repeat' split
    all_goals
      rw [decide_eq_false_iff_not]
      omega

theorem continues_none (first : Nat) :
    continues none = false ∧ secondOfThree first none = false ∧ secondOfFour first none = false := by
  unfold secondOfThree secondOfFour
  refine ⟨rfl, ?_, ?_⟩
  all_goals
    repeat' split
    all_goals rfl

/-- A byte below 0x80 belongs to no character that starts before it. -/
theorem decodeFirst_append (low : b.toNat < 0x80) (first : Nat) :
    decodeFirst first (before ++ b :: after) = decodeFirst first before := by
  obtain ⟨one, three, four⟩ := continues_low low first
  obtain ⟨one', three', four'⟩ := continues_none first
  unfold decodeFirst
  match before with
  | [] => simp [one, three, four, one', three', four']
  | [x] => simp [one, one']
  | [x, y] => simp [one, one']
  | x :: y :: z :: more => rfl

theorem decodeFirst_le (first : Nat) (rest : List UInt8) :
    (decodeFirst first rest).2 ≤ rest.length := by
  obtain ⟨one, three, four⟩ := continues_none first
  unfold decodeFirst
  match rest with
  | [] =>
    simp only [List.getElem?_nil, one, three, four, Bool.false_eq_true, if_false, Bool.not_false, if_true]
    repeat' split
    all_goals exact Nat.le_refl 0
  | [x] =>
    simp only [List.getElem?_cons_succ, List.getElem?_nil, one, Bool.not_false, if_true]
    repeat' split
    all_goals simp
  | [x, y] =>
    simp only [List.getElem?_cons_succ, List.getElem?_nil, one, Bool.not_false, if_true]
    repeat' split
    all_goals simp
  | x :: y :: z :: more =>
    repeat' split
    all_goals simp

theorem lossy_append (low : b.toNat < 0x80) :
    ∀ before, lossy (before ++ b :: after) = lossy before ++ Char.ofNat b.toNat :: lossy after
  | [] => by
    have single : decodeFirst b.toNat after = (Char.ofNat b.toNat, 0) := if_pos low
    rw [List.nil_append, lossy_cons, single]
    rfl
  | c :: rest => by
    have le := decodeFirst_le c.toNat rest
    have shorter : (rest.drop (decodeFirst c.toNat rest).2).length < (c :: rest).length := by
      rw [List.length_drop, List.length_cons]
      omega
    rw [List.cons_append, lossy_cons, lossy_cons, decodeFirst_append low,
      List.drop_append_of_le_length le, lossy_append low, List.cons_append]
termination_by before => before.length

end Lossy

example : lossy [0x61, 0xC3, 0xA9, 0xE2, 0x82, 0x62] = ['a', 'é', replacement, 'b'] := by decide

end Utf8
