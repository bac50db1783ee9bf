import Mathlib.Algebra.Group.Nat.Defs
import Mathlib.Tactic.Common

/-! Readers that take what they accept off the front of a text: single characters, numbers, items with
separators between them. -/

/-- What is read, with the text behind it. -/
abbrev Reader (α : Type) := List Char → Option (α × List Char)

namespace Reader

variable {α : Type}

def givenChar (target : Char) : Reader Unit
  | [] => none
  | c :: s => if c = target then some ((), s) else none

/-- With the separator before all items but the first. -/
def separated (sep : Char) (index : Nat) (inner : Reader α) : Reader α := fun s =>
  if 0 < index then (givenChar sep s).bind fun r => inner r.2 else inner s

/-- `char::to_digit` -/
def toDigit (radix : Nat) (c : Char) : Option Nat :=
  (if 48 ≤ c.toNat ∧ c.toNat ≤ 57 then some (c.toNat - 48)
    else if 97 ≤ c.toNat ∧ c.toNat ≤ 122 then some (c.toNat - 87)
    else if 65 ≤ c.toNat ∧ c.toNat ≤ 90 then some (c.toNat - 55)
    else none).filter (· < radix)

/-- Digits after those that come to `result`, as long as what they come to and how many there are
    `fits`. -/
def digits (radix : Nat) (fits : Nat → Nat → Bool) (result count : Nat) : Reader (Nat × Nat)
  | [] => some ((result, count), [])
  | c :: s =>
    match toDigit radix c with
    | none => some ((result, count), c :: s)
    | some d =>
      if fits (result * radix + d) (count + 1) then
        digits radix fits (result * radix + d) (count + 1) s
      else none

def fits (width : Nat) (maxDigits : Option Nat) (result count : Nat) : Bool :=
  match maxDigits with
  | some n => count ≤ n
  | none => result < 2 ^ width

def number (width radix : Nat) (maxDigits : Option Nat) (allowZeroPrefix : Bool) :
    Reader (BitVec width) := fun s => do
  let ((result, count), rest) ← digits radix (fits width maxDigits) 0 0 s
  if count = 0 then none
  else if !allowZeroPrefix && s.head? = some '0' && 1 < count then none
  else if result < 2 ^ width then some (BitVec.ofNat width result, rest)
  else none

/-- All of the text, or nothing. -/
def whole (read : Reader α) (s : List Char) : Option α :=
  (read s).bind fun r => if r.2.isEmpty then some r.1 else none

theorem givenChar_cons (c : Char) (s : List Char) : givenChar c (c :: s) = some ((), s) := if_pos rfl

theorem givenChar_eq_some {c : Char} {s : List Char} {r : Unit × List Char} :
    givenChar c s = some r ↔ s = c :: r.2 := by
  cases s with
  | nil => simp [givenChar]
  | cons d s =>
    rw [givenChar, List.cons_eq_cons]
    split
    · rename_i same
      rw [Option.some_inj, and_iff_right same, Prod.ext_iff]
      exact and_iff_right rfl
    · rename_i other
      exact iff_of_false (by simp) fun both => other both.1

theorem separated_zero (sep : Char) (inner : Reader α) : separated sep 0 inner = inner := by
  funext s
  exact if_neg (Nat.lt_irrefl 0)

theorem separated_succ (sep : Char) (index : Nat) (inner : Reader α) (s : List Char) :
    separated sep (index + 1) inner (sep :: s) = inner s := by
  rw [separated, if_pos index.succ_pos, givenChar_cons]
  rfl

/-- What is read are characters of one kind. -/
def Takes (legal : Char → Prop) (read : Reader α) : Prop :=
  ∀ s r, read s = some r → ∃ taken, s = taken ++ r.2 ∧ ∀ c ∈ taken, legal c

section Takes

variable {β : Type} {legal : Char → Prop}

theorem Takes.bind {read : Reader α} {next : α → Reader β} (first : Takes legal read)
    (second : ∀ a, Takes legal (next a)) : Takes legal fun s => (read s).bind fun r => next r.1 r.2 := by
  intro s r done
  obtain ⟨r₁, here, there⟩ := Option.bind_eq_some_iff.mp done
  obtain ⟨taken₁, split₁, legal₁⟩ := first s r₁ here
  obtain ⟨taken₂, split₂, legal₂⟩ := second r₁.1 r₁.2 r there
  refine ⟨taken₁ ++ taken₂, ?_, ?_⟩
  · rw [split₁, split₂, List.append_assoc]
  · intro c member
    rcases List.mem_append.mp member with member | member
    · exact legal₁ c member
    · exact legal₂ c member

theorem Takes.pure (a : α) : Takes legal fun s => some (a, s) := by
  intro s r done
  cases done
  exact ⟨[], rfl, by simp⟩

theorem Takes.orElse {first second : Reader α} (one : Takes legal first) (other : Takes legal second) :
    Takes legal fun s => (first s).or (second s) := by
  intro s r done
  rcases Option.or_eq_some_iff.mp done with done | ⟨-, done⟩
  · exact one s r done
  · exact other s r done

theorem takes_givenChar {c : Char} (fine : legal c) : Takes legal (givenChar c) := by
  intro s r done
  refine ⟨[c], givenChar_eq_some.mp done, ?_⟩
  simpa using fine

theorem Takes.separated {inner : Reader α} {sep : Char} (fine : legal sep) (takes : Takes legal inner)
    (index : Nat) : Takes legal (separated sep index inner) := by
  unfold Reader.separated
  by_cases later : 0 < index
  · simp only [if_pos later]
    exact (takes_givenChar fine).bind fun _ => takes
  · simp only [if_neg later]
    exact takes

theorem takes_digits {radix : Nat} (fine : ∀ c, toDigit radix c ≠ none → legal c)
    (fits : Nat → Nat → Bool) (result count : Nat) : Takes legal (digits radix fits result count) := by
  intro s
  induction s generalizing result count with
  | nil =>
    intro r done
    cases done
    exact ⟨[], rfl, by simp⟩
  | cons c s ih =>
    intro r done
    rw [digits] at done
    split at done
    · cases done
      exact ⟨[], rfl, by simp⟩
    · rename_i d digit
      split at done
      · obtain ⟨taken, split, legal⟩ := ih _ _ r done
        refine ⟨c :: taken, by rw [split, List.cons_append], ?_⟩
        rw [List.forall_mem_cons]
        exact ⟨fine c (by rw [digit]; exact Option.some_ne_none d), legal⟩
      · cases done

theorem takes_number {width radix : Nat} (fine : ∀ c, toDigit radix c ≠ none → legal c)
    (maxDigits : Option Nat) (allowZeroPrefix : Bool) :
    Takes legal (number width radix maxDigits allowZeroPrefix) := by
  intro s r done
  obtain ⟨⟨⟨result, count⟩, rest⟩, here, there⟩ := Option.bind_eq_some_iff.mp done
  obtain ⟨taken, split, legal⟩ := takes_digits fine _ _ _ s _ here
  dsimp only at there
  split at there
  · cases there
  · split at there
    · cases there
    · split at there
      · cases there
        exact ⟨taken, split, legal⟩
      · cases there

theorem Takes.whole {read : Reader α} (takes : Takes legal read) {s : List Char} {a : α}
    (done : whole read s = some a) : ∀ c ∈ s, legal c := by
  obtain ⟨⟨b, rest⟩, here, there⟩ := Option.bind_eq_some_iff.mp done
  obtain ⟨taken, split, legal⟩ := takes s _ here
  dsimp only at there split
  split at there
  · rename_i none
    rw [split, List.isEmpty_iff.mp none, List.append_nil]
    exact legal
  · cases there

end Takes

section Numbers

variable {radix : Nat}

/-- The text does not go on with a digit. -/
def NoDigit (radix : Nat) (s : List Char) : Prop := ∀ c ∈ s.head?, toDigit radix c = none

theorem noDigit_nil : NoDigit radix [] := fun _ first => by cases first

theorem noDigit_cons {c : Char} (sign : toDigit radix c = none) (s : List Char) :
    NoDigit radix (c :: s) := by
  intro d first
  cases first
  exact sign

theorem toDigit_of_le {radix' : Nat} (le : radix ≤ radix') {c : Char}
    (digit : toDigit radix c ≠ none) : toDigit radix' c ≠ none := by
  obtain ⟨d, here⟩ := Option.ne_none_iff_exists'.mp digit
  unfold toDigit at here ⊢
  rw [Option.filter_eq_some_iff, decide_eq_true_eq] at here
  rw [here.1, Option.filter_some, if_pos (decide_eq_true (by omega))]
  exact Option.some_ne_none d

def value (radix result : Nat) (s : List Char) : Nat :=
  s.foldl (fun n c => n * radix + (toDigit radix c).getD 0) result

theorem le_value (positive : 0 < radix) (result : Nat) (s : List Char) :
    result ≤ value radix result s := by
  induction s generalizing result with
  | nil => exact Nat.le_refl result
  | cons c s ih =>
    have more := ih (result * radix + (toDigit radix c).getD 0)
    have grown : result ≤ result * radix := Nat.le_mul_of_pos_right result positive
    change result ≤ value radix (result * radix + (toDigit radix c).getD 0) s
    omega

theorem fits_of_le {width : Nat} {maxDigits : Option Nat} {result result' count count' : Nat}
    (less : result ≤ result') (fewer : count ≤ count')
    (fit : fits width maxDigits result' count' = true) : fits width maxDigits result count = true := by
  cases maxDigits with
  | some n =>
    simp only [fits, decide_eq_true_eq] at fit ⊢
    omega
  | none =>
    simp only [fits, decide_eq_true_eq] at fit ⊢
    omega

theorem digits_append (positive : 0 < radix) {width : Nat} {maxDigits : Option Nat}
    {s rest : List Char} {result count : Nat} (all : ∀ c ∈ s, toDigit radix c ≠ none)
    (ends : NoDigit radix rest)
    (fit : fits width maxDigits (value radix result s) (count + s.length) = true) :
    digits radix (fits width maxDigits) result count (s ++ rest) =
      some ((value radix result s, count + s.length), rest) := by
  induction s generalizing result count with
  | nil =>
    cases rest with
    | nil => rfl
    | cons c rest =>
      rw [List.nil_append, digits, ends c rfl]
      rfl
  | cons c s ih =>
    obtain ⟨d, digit⟩ := Option.ne_none_iff_exists'.mp (all c List.mem_cons_self)
    have step : value radix result (c :: s) = value radix (result * radix + d) s := by
      change value radix (result * radix + (toDigit radix c).getD 0) s = _
      rw [digit, Option.getD_some]
    have length : count + (c :: s).length = count + 1 + s.length := by
      rw [List.length_cons]
      omega
    rw [step, length] at fit ⊢
    have now : fits width maxDigits (result * radix + d) (count + 1) = true :=
      fits_of_le (le_value positive _ s) (Nat.le_add_right _ _) fit
    rw [List.cons_append, digits, digit]
    dsimp only
    rw [if_pos now]
    exact ih (fun c member => all c (List.mem_cons_of_mem _ member)) fit

theorem toDigit_digitChar (small : radix ≤ 16) {d : Nat} (lt : d < radix) :
    toDigit radix d.digitChar = some d := by
  have all : ∀ e ∈ List.range 16, toDigit 16 e.digitChar = some e := by decide
  have here := all d (List.mem_range.mpr (by omega))
  unfold toDigit at here ⊢
  rw [Option.filter_eq_some_iff] at here ⊢
  exact ⟨here.1, decide_eq_true lt⟩

theorem toDigits_induction {P : Nat → List Char → Prop} (many : 1 < radix)
    (one : ∀ n, n < radix → P n [n.digitChar])
    (more : ∀ n s d, 0 < n → s ≠ [] → P n s → d < radix → P (n * radix + d) (s ++ [d.digitChar]))
    (n : Nat) :
    P n (Nat.toDigits radix n) := by
  induction n using Nat.strongRecOn with
  | ind n ih =>
    rw [Nat.toDigits_eq_if many]
    split
    · rename_i lt
      exact one n lt
    · rename_i le
      have front := ih (n / radix) (Nat.div_lt_self (by omega) many)
      have step := more _ _ (n % radix) (Nat.div_pos (by omega) (by omega)) Nat.toDigits_ne_nil front
        (Nat.mod_lt n (by omega))
      rwa [Nat.div_add_mod'] at step

theorem toDigit_of_mem_toDigits (many : 1 < radix) (small : radix ≤ 16) (n : Nat) :
    ∀ c ∈ Nat.toDigits radix n, toDigit radix c ≠ none := by
  have digit : ∀ d, d < radix → toDigit radix d.digitChar ≠ none := by
    intro d lt
    rw [toDigit_digitChar small lt]
    exact Option.some_ne_none d
  apply toDigits_induction (P := fun _ s => ∀ c ∈ s, toDigit radix c ≠ none) many
  · intro n lt
    simpa using digit n lt
  · intro n s d _ _ front lt c member
    rcases List.mem_append.mp member with member | member
    · exact front c member
    · rw [List.mem_singleton.mp member]
      exact digit d lt

theorem value_toDigits (many : 1 < radix) (small : radix ≤ 16) (n : Nat) :
    value radix 0 (Nat.toDigits radix n) = n := by
  apply toDigits_induction (P := fun n s => value radix 0 s = n) many
  · intro n lt
    simp [value, toDigit_digitChar small lt]
  · intro n s d _ _ front lt
    unfold value at front ⊢
    rw [List.foldl_append, front]
    simp [toDigit_digitChar small lt]

theorem head_toDigits (many : 1 < radix) (small : radix ≤ 16) (n : Nat) :
    0 < n → (Nat.toDigits radix n).head? ≠ some '0' := by
  apply toDigits_induction (P := fun n s => 0 < n → s.head? ≠ some '0') many
  · intro n lt positive zero
    have digit := toDigit_digitChar small lt
    rw [Option.some.inj zero] at digit
    have none : toDigit radix '0' = some 0 := toDigit_digitChar (d := 0) small (by omega)
    rw [none] at digit
    have same := Option.some.inj digit
    omega
  · intro n s d positive some front _ _ zero
    obtain ⟨c, s, rfl⟩ := List.exists_cons_of_ne_nil some
    exact front positive zero

theorem number_toDigits {width : Nat} {maxDigits : Option Nat} (many : 1 < radix)
    (small : radix ≤ 16) (allowZeroPrefix : Bool) {n : Nat} {rest : List Char} (bound : n < 2 ^ width)
    (short : ∀ k ∈ maxDigits, (Nat.toDigits radix n).length ≤ k)
    (ends : NoDigit radix rest) :
    number width radix maxDigits allowZeroPrefix (Nat.toDigits radix n ++ rest) =
      some (BitVec.ofNat width n, rest) := by
  have total := value_toDigits many small n
  have fit : fits width maxDigits (value radix 0 (Nat.toDigits radix n))
      (0 + (Nat.toDigits radix n).length) = true := by
    rw [total, Nat.zero_add]
    cases maxDigits with
    | some k => exact decide_eq_true (short k rfl)
    | none => exact decide_eq_true bound
  have read := digits_append (by omega) (toDigit_of_mem_toDigits many small n) ends fit
  rw [total, Nat.zero_add] at read
  have digits : (Nat.toDigits radix n).length ≠ 0 :=
    Nat.ne_of_gt Nat.length_toDigits_pos
  have plain : (Nat.toDigits radix n ++ rest).head? = some '0' →
      ¬ 1 < (Nat.toDigits radix n).length := by
    intro zero long
    rw [List.head?_append, Option.or_of_isSome (by simp)] at zero
    refine head_toDigits many small n (Nat.pos_of_ne_zero ?_) zero
    rintro rfl
    rw [Nat.toDigits_zero] at long
    exact absurd long (by decide)
  unfold number
  rw [read]
  simp only [Option.bind_eq_bind, Option.bind_some, if_neg digits, if_pos bound]
  rw [if_neg]
  intro both
  simp only [Bool.and_eq_true, decide_eq_true_eq] at both
  exact plain both.1.2 both.2

theorem number_toNat {width k : Nat} (many : 1 < radix) (small : radix ≤ 16) (positive : 0 < k)
    (room : 2 ^ width ≤ radix ^ k) (allowZeroPrefix : Bool) (x : BitVec width) {rest : List Char}
    (ends : NoDigit radix rest) :
    number width radix (some k) allowZeroPrefix (Nat.toDigits radix x.toNat ++ rest) =
      some (x, rest) := by
  have short : (Nat.toDigits radix x.toNat).length ≤ k :=
    (Nat.length_toDigits_le_iff many positive).mpr (Nat.lt_of_lt_of_le x.isLt room)
  rw [number_toDigits many small allowZeroPrefix x.isLt (by simpa using short) ends,
    BitVec.ofNat_toNat, BitVec.setWidth_eq]

theorem number_eq_none {width : Nat} (maxDigits : Option Nat) (allowZeroPrefix : Bool)
    {s : List Char} (ends : NoDigit radix s) :
    number width radix maxDigits allowZeroPrefix s = none := by
  have read : digits radix (fits width maxDigits) 0 0 s = some ((0, 0), s) := by
    cases s with
    | nil => rfl
    | cons c s => rw [digits, ends c rfl]
  unfold number
  rw [read]
  rfl

end Numbers

end Reader
