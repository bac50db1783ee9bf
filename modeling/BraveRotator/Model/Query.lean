import BraveRotator.Lib.Text
import BraveRotator.Lib.Utf8
import BraveRotator.Lib.While

namespace BraveRotator

def hex (b : UInt8) : Option UInt8 :=
  if '0'.toUInt8 ≤ b ∧ b ≤ '9'.toUInt8 then some (b - '0'.toUInt8)
  else if 'a'.toUInt8 ≤ b ∧ b ≤ 'f'.toUInt8 then some (b - 'a'.toUInt8 + 10)
  else if 'A'.toUInt8 ≤ b ∧ b ≤ 'F'.toUInt8 then some (b - 'A'.toUInt8 + 10)
  else none

/-- The variables of the loop in `url_decode`. -/
structure Decoding where
  i : Nat := 0
  out : List UInt8 := []

def urlDecodeBody (bytes : List UInt8) (s : Decoding) (inside : s.i < bytes.length) : Decoding :=
  let b := bytes[s.i]
  if b = '+'.toUInt8 then { i := s.i + 1, out := s.out ++ [' '.toUInt8] }
  else if room : b = '%'.toUInt8 ∧ s.i + 2 < bytes.length then
    have next : s.i + 1 < bytes.length := Nat.lt_of_succ_lt room.2
    have last : s.i + 2 < bytes.length := room.2
    match hex bytes[s.i + 1], hex bytes[s.i + 2] with
    | some h, some l => { i := s.i + 3, out := s.out ++ [(h <<< 4) ||| l] }
    | _, _ => { i := s.i + 1, out := s.out ++ ['%'.toUInt8] }
  else { i := s.i + 1, out := s.out ++ [b] }

theorem lt_urlDecodeBody (bytes : List UInt8) (s : Decoding) (inside : s.i < bytes.length) :
    s.i < (urlDecodeBody bytes s inside).i := by
  unfold urlDecodeBody
  dsimp only
  split
  · exact Nat.lt_succ_self _
  · split
    · split
      · exact Nat.lt_add_of_pos_right (Nat.succ_pos 2)
      · exact Nat.lt_succ_self _
    · exact Nat.lt_succ_self _

def urlDecodeLoop (bytes : List UInt8) : While Decoding where
  guard s := s.i < bytes.length
  decidable _ := inferInstance
  body := urlDecodeBody bytes
  measure s := bytes.length - s.i
  decreases s inside := by
    have further := lt_urlDecodeBody bytes s inside
    omega

/-- Percent-decodes a URL query component (`+` becomes a space). -/
def urlDecode (s : List Char) : List Char := Utf8.lossy ((urlDecodeLoop (Utf8.encode s)).run {}).out

/-- Value of query parameter `name` in `path_and_query`, decoded. -/
def queryParam (pathAndQuery name : List Char) : Option (List Char) :=
  (Text.splitOnce '?' pathAndQuery).bind fun (_, query) =>
    (query.splitOnP (· = '&')).findSome? fun kv =>
      let (k, v) := (Text.splitOnce '=' kv).getD (kv, [])
      if urlDecode k = name then some (urlDecode v) else none

end BraveRotator
