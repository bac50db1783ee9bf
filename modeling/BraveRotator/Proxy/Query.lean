import BraveRotator.Lib.Percent
import BraveRotator.Model.Query

namespace BraveRotator

section Digits

theorem hex_ofFin : ∀ n : Fin 256,
    hex (UInt8.ofFin n) = (Percent.digit? (UInt8.ofFin n)).map UInt8.ofNat := by decide +kernel

theorem shift_ofFin : ∀ h l : Fin 16,
    (UInt8.ofNat h <<< 4) ||| UInt8.ofNat l = UInt8.ofNat (16 * h + l) := by decide +kernel

theorem hex_eq (b : UInt8) : hex b = (Percent.digit? b).map UInt8.ofNat := hex_ofFin b.toFin

theorem digit_lt {b : UInt8} {d : Nat} (digit : Percent.digit? b = some d) : d < 16 := by
  unfold Percent.digit? at digit
  split at digit
  · cases digit
    omega
  · split at digit
    · cases digit
      omega
    · split at digit
      · cases digit
        omega
      · cases digit

theorem hex_escaped (a b : UInt8) :
    (hex a).bind (fun h => (hex b).map fun l => (h <<< 4) ||| l) = Percent.escaped? a b := by
  rw [hex_eq, hex_eq, Percent.escaped?]
  cases high : Percent.digit? a with
  | none => rfl
  | some h =>
    cases low : Percent.digit? b with
    | none => rfl
    | some l => exact congrArg some (shift_ofFin ⟨h, digit_lt high⟩ ⟨l, digit_lt low⟩)

end Digits

section Loop

variable (bytes : List UInt8)

/-- One round decodes what it passes. -/
theorem urlDecodeBody_decode (s : Decoding) (inside : s.i < bytes.length) :
    (urlDecodeBody bytes s inside).i ≤ bytes.length ∧
      (urlDecodeBody bytes s inside).out ++ Percent.decode (bytes.drop (urlDecodeBody bytes s inside).i) =
        s.out ++ Percent.decode (bytes.drop s.i) := by
  have ahead : bytes.drop s.i = bytes[s.i] :: bytes.drop (s.i + 1) := List.drop_eq_getElem_cons inside
  have push (bare : bytes[s.i] = Percent.percent → ¬ Percent.StartsEscaped (bytes.drop (s.i + 1))) :
      s.out ++ [Percent.unplus bytes[s.i]] ++ Percent.decode (bytes.drop (s.i + 1)) =
        s.out ++ Percent.decode (bytes.drop s.i) := by
    rw [ahead, Percent.decode_cons bare, List.append_assoc, List.singleton_append]
  unfold urlDecodeBody
  dsimp only
  split
  · rename_i plus
    have step := push fun percent => absurd (plus.symm.trans percent) (by decide)
    rw [Percent.unplus, if_pos (show bytes[s.i] = Percent.plus from plus)] at step
    exact ⟨inside, step⟩
  · rename_i plain
    have literal : Percent.unplus bytes[s.i] = bytes[s.i] := if_neg plain
    rw [literal] at push
    split
    · rename_i room
      obtain ⟨percent, last⟩ := room
      have second : bytes.drop (s.i + 1) = bytes[s.i + 1] :: bytes[s.i + 2] :: bytes.drop (s.i + 3) := by
        rw [List.drop_eq_getElem_cons (Nat.lt_of_succ_lt last), List.drop_eq_getElem_cons last]
      have digits := hex_escaped bytes[s.i + 1] bytes[s.i + 2]
      split
      · rename_i h l high low
        rw [high, low] at digits
        refine ⟨last, ?_⟩
        rw [ahead, second, show bytes[s.i] = Percent.percent from percent,
          Percent.decode_escape digits.symm, List.append_assoc, List.singleton_append]
      · rename_i none
        have bare : ¬ Percent.StartsEscaped (bytes.drop (s.i + 1)) := by
          rw [second]
          intro escaped
          refine escaped ?_
          rw [← digits]
          cases high : hex bytes[s.i + 1] with
          | none => rfl
          | some h =>
            cases low : hex bytes[s.i + 2] with
            | none => rfl
            | some l => exact absurd low (none h l high)
        have step := push fun _ => bare
        rw [percent] at step
        exact ⟨inside, step⟩
    · rename_i short
      refine ⟨inside, push ?_⟩
      intro percent
      have few : bytes.length ≤ s.i + 2 := Nat.le_of_not_lt fun last => short ⟨percent, last⟩
      apply Percent.not_startsEscaped_of_length
      rw [List.length_drop]
      omega

theorem urlDecodeLoop_run :
    ((urlDecodeLoop bytes).run {}).i = bytes.length ∧
      ((urlDecodeLoop bytes).run {}).out = Percent.decode bytes := by
  let Decoded (s : Decoding) : Prop :=
    s.i ≤ bytes.length ∧ s.out ++ Percent.decode (bytes.drop s.i) = Percent.decode bytes
  have keep : ∀ s inside, Decoded s → Decoded ((urlDecodeLoop bytes).body s inside) := by
    intro s inside decoded
    obtain ⟨le, step⟩ := urlDecodeBody_decode bytes s inside
    exact ⟨le, step.trans decoded.2⟩
  have start : Decoded {} := ⟨Nat.zero_le _, rfl⟩
  obtain ⟨⟨le, decoded⟩, off⟩ := While.run_invariant keep start
  generalize (urlDecodeLoop bytes).run {} = s at le decoded off ⊢
  have all : s.i = bytes.length := Nat.le_antisymm le (Nat.le_of_not_lt off)
  rw [all, List.drop_length, Percent.decode, List.append_nil] at decoded
  exact ⟨all, decoded⟩

end Loop

theorem urlDecode_eq (s : List Char) :
    urlDecode s = Utf8.lossy (Percent.decode (Utf8.encode s)) := by
  rw [urlDecode, (urlDecodeLoop_run _).2]

section Bare

def IsHexDigit (c : Char) : Prop :=
  ('0' ≤ c ∧ c ≤ '9') ∨ ('a' ≤ c ∧ c ≤ 'f') ∨ ('A' ≤ c ∧ c ≤ 'F')

def StartsWithHex : List Char → Prop
  | h :: l :: _ => IsHexDigit h ∧ IsHexDigit l
  | _ => False

theorem isHexDigit_of_digit {b : UInt8} {c : Char} (same : c.toNat = b.toNat)
    (digit : Percent.digit? b ≠ none) : IsHexDigit c := by
  have range := Percent.range_of_digit digit
  rw [← same] at range
  unfold IsHexDigit
  simp only [Char.le_def, UInt32.le_iff_toNat_le]
  exact range

theorem startsWithHex_of_escaped {s : List Char} (escaped : Percent.StartsEscaped (Utf8.encode s)) :
    StartsWithHex s := by
  match bytes : Utf8.encode s with
  | [] =>
    rw [bytes] at escaped
    exact escaped.elim
  | [_] =>
    rw [bytes] at escaped
    exact escaped.elim
  | h :: l :: rest =>
    rw [bytes] at escaped
    obtain ⟨high, low⟩ := Percent.digits_of_escaped escaped
    obtain ⟨c, s, rfl, same, tail⟩ := Utf8.encode_eq_cons (Percent.low_of_digit high) bytes
    obtain ⟨d, s, rfl, same', -⟩ := Utf8.encode_eq_cons (Percent.low_of_digit low) tail.symm
    exact ⟨isHexDigit_of_digit same high, isHexDigit_of_digit same' low⟩

/-- A `%` that two hex digits do not follow is left in place. -/
theorem urlDecode_bare (before : List Char) {after : List Char} (bare : ¬ StartsWithHex after) :
    urlDecode (before ++ '%' :: after) = urlDecode before ++ '%' :: urlDecode after := by
  have bytes : Utf8.encode (before ++ '%' :: after) =
      Utf8.encode before ++ Percent.percent :: Utf8.encode after := by
    unfold Utf8.encode
    rw [List.flatMap_append, List.flatMap_cons]
    rfl
  rw [urlDecode_eq, bytes, Percent.decode_bare (mt startsWithHex_of_escaped bare),
    Utf8.lossy_append (by decide), ← urlDecode_eq, ← urlDecode_eq]
  rfl

end Bare

section Pairs

/-- What an encoding must not leave as it is. -/
def Reserved (b : UInt8) : Prop := b ∈ ['%', '+', '&', '=', '#'].map Char.toUInt8

instance Reserved.decidable (b : UInt8) : Decidable (Reserved b) :=
  inferInstanceAs (Decidable (b ∈ _))

def EncodedAs (s text : List Char) : Prop :=
  Percent.Encodes Reserved (Utf8.encode s) (Utf8.encode text)

structure QueryPair where
  name : List Char
  value : List Char
  encodedName : List Char
  encodedValue : List Char
  nameEncoded : EncodedAs name encodedName
  valueEncoded : EncodedAs value encodedValue

def QueryPair.text (pair : QueryPair) : List Char := pair.encodedName ++ '=' :: pair.encodedValue

def queryText (pairs : List QueryPair) : List Char := ['&'].intercalate (pairs.map QueryPair.text)

variable {s text name : List Char} {pair : QueryPair} {pairs : List QueryPair}

theorem urlDecode_of_encoded (encoded : EncodedAs s text) : urlDecode text = s := by
  have decoded : Percent.decode (Utf8.encode text) = Utf8.encode s :=
    Percent.decode_of_encodes (by decide) (by decide) encoded
  rw [urlDecode_eq, decoded, Utf8.lossy_encode]

theorem EncodedAs.notMem (encoded : EncodedAs s text) :
    '&' ∉ text ∧ '=' ∉ text := by
  have ampersand : '&'.toUInt8 ∉ Utf8.encode text :=
    Percent.notMem_of_encodes encoded (by decide) (by decide) (by decide) (by decide)
  have equals : '='.toUInt8 ∉ Utf8.encode text :=
    Percent.notMem_of_encodes encoded (by decide) (by decide) (by decide) (by decide)
  exact ⟨fun member => ampersand (Utf8.mem_encode member (by decide)),
    fun member => equals (Utf8.mem_encode member (by decide))⟩

theorem QueryPair.splitOnce_text (pair : QueryPair) :
    Text.splitOnce '=' pair.text = some (pair.encodedName, pair.encodedValue) :=
  Text.splitOnce_append pair.nameEncoded.notMem.2 _

theorem QueryPair.notMem_text (pair : QueryPair) : '&' ∉ pair.text := by
  have name := pair.nameEncoded.notMem.1
  have value := pair.valueEncoded.notMem.1
  unfold text
  simp [name, value]

theorem splitOnP_queryText (nonempty : pairs ≠ []) :
    (queryText pairs).splitOnP (· = '&') = pairs.map QueryPair.text := by
  have free : ∀ part ∈ pairs.map QueryPair.text, '&' ∉ part := by
    intro part member
    obtain ⟨pair, -, rfl⟩ := List.mem_map.mp member
    exact pair.notMem_text
  exact List.splitOn_intercalate '&' free (mt List.map_eq_nil_iff.mp nonempty)

theorem findSome?_text (pairs : List QueryPair) (name : List Char) :
    ((pairs.map QueryPair.text).findSome? fun kv =>
      let (k, v) := (Text.splitOnce '=' kv).getD (kv, [])
      if urlDecode k = name then some (urlDecode v) else none) =
        (pairs.find? (·.name = name)).map QueryPair.value := by
  induction pairs with
  | nil => rfl
  | cons pair pairs ih =>
    have key := urlDecode_of_encoded pair.nameEncoded
    have value := urlDecode_of_encoded pair.valueEncoded
    rw [List.map_cons, List.findSome?_cons, List.find?_cons]
    dsimp only
    rw [pair.splitOnce_text, Option.getD_some]
    dsimp only
    rw [key, value, ih]
    by_cases same : pair.name = name
    · rw [if_pos same, decide_eq_true same]
      rfl
    · rw [if_neg same, decide_eq_false same]

/-- A parameter is found however the pairs have been encoded. -/
theorem queryParam_of_pairs {path : List Char} (bare : '?' ∉ path) (nonempty : pairs ≠ [])
    (name : List Char) :
    queryParam (path ++ '?' :: queryText pairs) name =
      (pairs.find? (·.name = name)).map QueryPair.value := by
  unfold queryParam
  rw [Text.splitOnce_append bare, Option.bind_some]
  dsimp only
  rw [splitOnP_queryText nonempty, findSome?_text]

end Pairs

/-- Query decoding inverts every encoding, and ends on every text with each `%` left in place that two
    hex digits do not follow. -/
theorem query_decoding :
    (∀ (path : List Char) (pairs : List QueryPair) (name : List Char), '?' ∉ path → pairs ≠ [] →
      queryParam (path ++ '?' :: queryText pairs) name =
        (pairs.find? (·.name = name)).map QueryPair.value) ∧
    (∀ s : List Char, ∃ rounds last, rounds ≤ (Utf8.encode s).length ∧
      (urlDecodeLoop (Utf8.encode s)).Ends rounds {} last ∧ urlDecode s = Utf8.lossy last.out) ∧
    ∀ before after : List Char, ¬ StartsWithHex after →
      urlDecode (before ++ '%' :: after) = urlDecode before ++ '%' :: urlDecode after := by
  refine ⟨?_, ?_, ?_⟩
  · intro path pairs name bare nonempty
    exact queryParam_of_pairs bare nonempty name
  · intro s
    obtain ⟨rounds, le, ends⟩ := While.ends_run (w := urlDecodeLoop (Utf8.encode s)) {}
    exact ⟨rounds, _, le, ends, rfl⟩
  · intro before after bare
    exact urlDecode_bare before bare

theorem search_decoded :
    queryParam "/search?q=%C3%a9+b&q=c".toList "q".toList = some "é b".toList ∧
      urlDecode "5%z".toList = urlDecode "5".toList ++ '%' :: urlDecode "z".toList := by
  have name : EncodedAs "q".toList "q".toList := .literal (by decide) (by decide) .nil
  have last : EncodedAs "c".toList "c".toList := .literal (by decide) (by decide) .nil
  have bytes : Utf8.encode "é b".toList = [0xC3, 0xA9, 0x20, 0x62] := by decide
  have text : Utf8.encode "%C3%a9+b".toList =
      [0x25, 0x43, 0x33, 0x25, 0x61, 0x39, 0x2B, 0x62] := by decide
  have value : EncodedAs "é b".toList "%C3%a9+b".toList := by
    unfold EncodedAs
    rw [bytes, text]
    apply Percent.Encodes.escape (by decide)
    apply Percent.Encodes.escape (by decide)
    apply Percent.Encodes.plus
    exact .literal (by decide) (by decide) .nil
  constructor
  · exact query_decoding.1 "/search".toList [⟨_, _, _, _, name, value⟩, ⟨_, _, _, _, name, last⟩]
      "q".toList (by decide) (by simp)
  · exact query_decoding.2.2 "5".toList "z".toList not_false

end BraveRotator
