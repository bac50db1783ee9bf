import Mathlib.Data.List.Induction
import BraveRotator.Lib.Reader

/-! IP addresses and socket addresses, as the standard library reads and writes them. -/

namespace Net

open Reader

inductive IpAddr where
  | v4 (bits : BitVec 32)
  | v6 (bits : BitVec 128)
  deriving DecidableEq, Repr

inductive SocketAddr where
  | v4 (ip : BitVec 32) (port : BitVec 16)
  | v6 (ip : BitVec 128) (port : BitVec 16) (flowinfo scopeId : BitVec 32)
  deriving DecidableEq, Repr

namespace IpAddr

def isUnspecified : IpAddr → Bool
  | v4 bits => bits = 0
  | v6 bits => bits = 0

def isIpv4 : IpAddr → Bool
  | v4 _ => true
  | v6 _ => false

end IpAddr

namespace SocketAddr

def new (ip : IpAddr) (port : BitVec 16) : SocketAddr :=
  match ip with
  | .v4 bits => .v4 bits port
  | .v6 bits => .v6 bits port 0 0

def ip : SocketAddr → IpAddr
  | v4 ip _ => .v4 ip
  | v6 ip _ _ _ => .v6 ip

def port : SocketAddr → BitVec 16
  | v4 _ port => port
  | v6 _ port _ _ => port

def isIpv4 (addr : SocketAddr) : Bool := addr.ip.isIpv4

end SocketAddr

section Parts

variable {width : Nat}

/-- The number that parts of `width` bits come to, the first of them on top. -/
def join (parts : List (BitVec width)) : Nat :=
  parts.foldl (fun value part => value * 2 ^ width + part.toNat) 0

def split (width : Nat) : (count value : Nat) → List (BitVec width)
  | 0, _ => []
  | count + 1, value => split width count (value / 2 ^ width) ++ [BitVec.ofNat width value]

theorem join_concat (parts : List (BitVec width)) (part : BitVec width) :
    join (parts ++ [part]) = join parts * 2 ^ width + part.toNat := by
  unfold join
  rw [List.foldl_append]
  rfl

theorem length_split (count value : Nat) : (split width count value).length = count := by
  induction count generalizing value with
  | zero => rfl
  | succ count ih => rw [split, List.length_append, ih, List.length_singleton]

theorem join_split (count value : Nat) :
    join (split width count value) = value % 2 ^ (width * count) := by
  induction count generalizing value with
  | zero => simp [split, join, Nat.mod_one]
  | succ count ih =>
    rw [split, join_concat, ih, BitVec.toNat_ofNat, Nat.mul_succ, Nat.pow_add,
      Nat.mul_comm (2 ^ (width * count)), Nat.mod_mul, Nat.add_comm, Nat.mul_comm (2 ^ width)]

theorem split_join (parts : List (BitVec width)) : split width parts.length (join parts) = parts := by
  induction parts using List.reverseRecOn with
  | nil => rfl
  | append_singleton parts part ih =>
    have top : (join parts * 2 ^ width + part.toNat) / 2 ^ width = join parts := by
      rw [Nat.mul_comm, Nat.mul_add_div (Nat.two_pow_pos width), Nat.div_eq_of_lt part.isLt,
        Nat.add_zero]
    have bottom : BitVec.ofNat width (join parts * 2 ^ width + part.toNat) = part := by
      apply BitVec.eq_of_toNat_eq
      rw [BitVec.toNat_ofNat, Nat.mul_comm, Nat.mul_add_mod, Nat.mod_eq_of_lt part.isLt]
    rw [List.length_append, List.length_singleton, split, join_concat, top, bottom, ih]

end Parts

def octets (ip : BitVec 32) : List (BitVec 8) := split 8 4 ip.toNat

def segments (ip : BitVec 128) : List (BitVec 16) := split 16 8 ip.toNat

section Read

def readOctet : Reader (BitVec 8) := number 8 10 (some 3) false

/-- The octets from `index` on. -/
def readOctets (index : Nat) : (left : Nat) → Reader (List (BitVec 8))
  | 0 => fun s => some ([], s)
  | left + 1 => fun s => do
    let (octet, s) ← separated '.' index readOctet s
    let (octets, s) ← readOctets (index + 1) left s
    return (octet :: octets, s)

def readIpv4Addr : Reader (BitVec 32) := fun s =>
  (readOctets 0 4 s).map fun (octets, s) => (BitVec.ofNat 32 (join octets), s)

def readGroup : Reader (BitVec 16) := number 16 16 (some 4) true

/-- The groups from `index` on, and whether an embedded IPv4 address is the end of them. -/
def readGroups (index : Nat) : (left : Nat) → List Char → (List (BitVec 16) × Bool) × List Char
  | 0, s => (([], false), s)
  | left + 1, s =>
    -- There must be at least two groups left for an IPv4 address.
    match if 0 < left then separated ':' index readIpv4Addr s else none with
    | some (ip, s) => ((split 16 2 ip.toNat, true), s)
    | none =>
      match separated ':' index readGroup s with
      | none => (([], false), s)
      | some (group, s) =>
        let ((groups, ipv4), s) := readGroups (index + 1) left s
        ((group :: groups, ipv4), s)

/-- The address from `::` on, with the groups before it. -/
def readBack (head : List (BitVec 16)) : Reader (BitVec 128) := fun s => do
  let (_, s) ← givenChar ':' s
  let (_, s) ← givenChar ':' s
  -- The `::` must contain at least one set of zeroes.
  let ((tail, _), s) := readGroups 0 (8 - (head.length + 1)) s
  let zeroes := List.replicate (8 - head.length - tail.length) 0
  return (BitVec.ofNat 128 (join (head ++ zeroes ++ tail)), s)

def readIpv6Addr : Reader (BitVec 128) := fun s =>
  let ((head, ipv4), s) := readGroups 0 8 s
  if head.length = 8 then some (BitVec.ofNat 128 (join head), s)
  -- IPv4 part is not allowed before `::`
  else if ipv4 then none
  else readBack head s

def readIpAddr : Reader IpAddr := fun s =>
  ((readIpv4Addr s).map fun (ip, s) => (.v4 ip, s)).or
    ((readIpv6Addr s).map fun (ip, s) => (.v6 ip, s))

def readPort : Reader (BitVec 16) := fun s => do
  let (_, s) ← givenChar ':' s
  number 16 10 none true s

def readScopeId : Reader (BitVec 32) := fun s => do
  let (_, s) ← givenChar '%' s
  number 32 10 none true s

def readSocketAddrV4 : Reader SocketAddr := fun s => do
  let (ip, s) ← readIpv4Addr s
  let (port, s) ← readPort s
  return (.v4 ip port, s)

def readSocketAddrV6 : Reader SocketAddr := fun s => do
  let (_, s) ← givenChar '[' s
  let (ip, s) ← readIpv6Addr s
  let (scopeId, s) := (readScopeId s).getD (0, s)
  let (_, s) ← givenChar ']' s
  let (port, s) ← readPort s
  return (.v6 ip port 0 scopeId, s)

def readSocketAddr : Reader SocketAddr := fun s => (readSocketAddrV4 s).or (readSocketAddrV6 s)

def IpAddr.parse (s : List Char) : Except String IpAddr :=
  match whole readIpAddr s with
  | some ip => .ok ip
  | none => .error "invalid IP address syntax"

def SocketAddr.parse (s : List Char) : Except String SocketAddr :=
  match whole readSocketAddr s with
  | some addr => .ok addr
  | none => .error "invalid socket address syntax"

end Read

/-- Digits, and the characters that stand between them in an address. -/
def IsAddressChar (c : Char) : Prop :=
  toDigit 16 c ≠ none ∨ c ∈ ['.', ':', '[', ']', '%']

section Takes

theorem takes_number (width : Nat) {radix : Nat} (small : radix ≤ 16) (maxDigits : Option Nat)
    (allowZeroPrefix : Bool) :
    Takes IsAddressChar (number width radix maxDigits allowZeroPrefix) :=
  Reader.takes_number (fun _ digit => .inl (toDigit_of_le small digit)) maxDigits allowZeroPrefix

theorem isAddressChar_sign {c : Char} (sign : c ∈ ['.', ':', '[', ']', '%']) : IsAddressChar c :=
  .inr sign

theorem takes_readOctets (index left : Nat) : Takes IsAddressChar (readOctets index left) := by
  induction left generalizing index with
  | zero => exact .pure []
  | succ left ih =>
    have octet : Takes IsAddressChar readOctet := takes_number 8 (by decide) (some 3) false
    have first := octet.separated (isAddressChar_sign (c := '.') (by decide)) index
    exact first.bind fun octet => (ih (index + 1)).bind fun octets => .pure (octet :: octets)

theorem takes_readIpv4Addr : Takes IsAddressChar readIpv4Addr := by
  intro s r done
  obtain ⟨r', here, rfl⟩ := Option.map_eq_some_iff.mp done
  exact takes_readOctets 0 4 s r' here

theorem takes_readGroups (index left : Nat) :
    Takes IsAddressChar fun s => some (readGroups index left s) := by
  have colon : IsAddressChar ':' := isAddressChar_sign (by decide)
  induction left generalizing index with
  | zero => exact .pure ([], false)
  | succ left ih =>
    intro s r done
    cases done
    rw [readGroups]
    split
    · rename_i ip s' here
      split at here
      · exact takes_readIpv4Addr.separated colon index s _ here
      · cases here
    · have group : Takes IsAddressChar readGroup := takes_number 16 (by decide) (some 4) true
      split
      · exact ⟨[], rfl, by simp⟩
      · rename_i group' s' here
        have takes := (group.separated colon index).bind fun g =>
          (ih (index + 1)).bind fun gs => Takes.pure (g :: gs.1, gs.2)
        apply takes s
        dsimp only
        rw [here]
        rfl

theorem takes_readBack (head : List (BitVec 16)) : Takes IsAddressChar (readBack head) := by
  have colon : Takes IsAddressChar (givenChar ':') := takes_givenChar (isAddressChar_sign (by decide))
  have tail := takes_readGroups 0 (8 - (head.length + 1))
  exact colon.bind fun _ => colon.bind fun _ => tail.bind fun tail => .pure
    (BitVec.ofNat 128
      (join (head ++ List.replicate (8 - head.length - tail.1.length) 0 ++ tail.1)))

theorem takes_readIpv6Addr : Takes IsAddressChar readIpv6Addr := by
  intro s r done
  obtain ⟨taken, split, legal⟩ := takes_readGroups 0 8 s _ rfl
  unfold readIpv6Addr at done
  generalize readGroups 0 8 s = read at split done
  obtain ⟨⟨head, ipv4⟩, rest⟩ := read
  dsimp only at split done
  split at done
  · cases done
    exact ⟨taken, split, legal⟩
  · split at done
    · cases done
    · obtain ⟨taken', split', legal'⟩ := takes_readBack head rest r done
      refine ⟨taken ++ taken', by rw [split, split', List.append_assoc], ?_⟩
      intro c member
      exact (List.mem_append.mp member).elim (legal c) (legal' c)

theorem takes_readPort : Takes IsAddressChar readPort :=
  (takes_givenChar (isAddressChar_sign (by decide))).bind fun _ => takes_number 16 (by decide) none true

theorem takes_readScopeId : Takes IsAddressChar readScopeId :=
  (takes_givenChar (isAddressChar_sign (by decide))).bind fun _ => takes_number 32 (by decide) none true

theorem takes_readSocketAddr : Takes IsAddressChar readSocketAddr := by
  have opening : Takes IsAddressChar (givenChar '[') :=
    takes_givenChar (isAddressChar_sign (by decide))
  have closing : Takes IsAddressChar (givenChar ']') :=
    takes_givenChar (isAddressChar_sign (by decide))
  have scope : Takes IsAddressChar fun s => some ((readScopeId s).getD (0, s)) := by
    intro s r done
    cases done
    cases read : readScopeId s with
    | none => exact ⟨[], rfl, by simp⟩
    | some r => exact takes_readScopeId s r read
  apply Takes.orElse
  · exact takes_readIpv4Addr.bind fun ip =>
      takes_readPort.bind fun port => .pure (SocketAddr.v4 ip port)
  · exact opening.bind fun _ => takes_readIpv6Addr.bind fun ip =>
      scope.bind fun scopeId => closing.bind fun _ =>
        takes_readPort.bind fun port => .pure (SocketAddr.v6 ip port 0 scopeId)

/-- A socket address is made up of address characters. -/
theorem SocketAddr.chars_of_parse {s : List Char} {addr : SocketAddr}
    (ok : SocketAddr.parse s = .ok addr) : ∀ c ∈ s, IsAddressChar c := by
  unfold SocketAddr.parse at ok
  split at ok
  · rename_i read
    exact takes_readSocketAddr.whole read
  · cases ok

theorem SocketAddr.parse_nil : SocketAddr.parse [] = .error "invalid socket address syntax" := rfl

end Takes

end Net
