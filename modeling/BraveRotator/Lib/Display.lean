import BraveRotator.Lib.Net

/-! How the standard library writes IP addresses, and that it reads back what it writes. -/

namespace Net

open Reader

/-- With the separator before all items but the first. -/
def listed (sep : Char) : (index : Nat) → List (List Char) → List Char
  | _, [] => []
  | index, item :: items => (if 0 < index then sep :: item else item) ++ listed sep (index + 1) items

/-- `{}` -/
def decimal (octet : BitVec 8) : List Char := Nat.toDigits 10 octet.toNat

/-- `{:x}` -/
def lowerHex (group : BitVec 16) : List Char := Nat.toDigits 16 group.toNat

def displayIpv4 (ip : BitVec 32) : List Char := listed '.' 0 ((octets ip).map decimal)

/-- `fmt_subslice` -/
def displayGroups (groups : List (BitVec 16)) : List Char :=
  listed ':' 0 (groups.map lowerHex)

def toIpv4Mapped (ip : BitVec 128) : Option (BitVec 32) :=
  if (segments ip).take 6 = [0, 0, 0, 0, 0, 0xFFFF] then
    some (BitVec.ofNat 32 (join ((segments ip).drop 6)))
  else none

structure Span where
  start : Nat := 0
  len : Nat := 0

structure Zeroes where
  longest : Span := {}
  current : Span := {}

/-- The body of the loop over the segments. -/
def Zeroes.visit (zeroes : Zeroes) (i : Nat) (segment : BitVec 16) : Zeroes :=
  if segment = 0 then
    let start := if zeroes.current.len = 0 then i else zeroes.current.start
    let current : Span := { start, len := zeroes.current.len + 1 }
    { longest := if zeroes.longest.len < current.len then current else zeroes.longest, current }
  else { zeroes with current := {} }

/-- The loop from segment `i` on. -/
def Zeroes.visitFrom (zeroes : Zeroes) (i : Nat) : List (BitVec 16) → Zeroes
  | [] => zeroes
  | segment :: segments => (zeroes.visit i segment).visitFrom (i + 1) segments

def displayIpv6 (ip : BitVec 128) : List Char :=
  match toIpv4Mapped ip with
  | some ip => "::ffff:".toList ++ displayIpv4 ip
  | none =>
    let zeroes := (Zeroes.visitFrom {} 0 (segments ip)).longest
    if 1 < zeroes.len then
      displayGroups ((segments ip).take zeroes.start) ++
        ':' :: ':' :: displayGroups ((segments ip).drop (zeroes.start + zeroes.len))
    else displayGroups (segments ip)

def IpAddr.display : IpAddr → List Char
  | v4 ip => displayIpv4 ip
  | v6 ip => displayIpv6 ip

theorem join_octets (ip : BitVec 32) : BitVec.ofNat 32 (join (octets ip)) = ip := by
  have value : join (octets ip) = ip.toNat := (join_split 4 ip.toNat).trans (Nat.mod_eq_of_lt ip.isLt)
  rw [value, BitVec.ofNat_toNat, BitVec.setWidth_eq]

theorem join_segments (ip : BitVec 128) : BitVec.ofNat 128 (join (segments ip)) = ip := by
  have value : join (segments ip) = ip.toNat := (join_split 8 ip.toNat).trans (Nat.mod_eq_of_lt ip.isLt)
  rw [value, BitVec.ofNat_toNat, BitVec.setWidth_eq]

theorem readOctet_decimal (octet : BitVec 8) {rest : List Char} (ends : NoDigit 10 rest) :
    readOctet (decimal octet ++ rest) = some (octet, rest) :=
  number_toNat (by decide) (by decide) (by decide) (by decide) false octet ends

theorem readGroup_lowerHex (group : BitVec 16) {rest : List Char} (ends : NoDigit 16 rest) :
    readGroup (lowerHex group ++ rest) = some (group, rest) :=
  number_toNat (by decide) (by decide) (by decide) (by decide) true group ends

section Listed

variable {sep : Char} {rest : List Char}

theorem separated_item {α : Type} (index : Nat) (inner : Reader α) (item s : List Char) :
    separated sep index inner ((if 0 < index then sep :: item else item) ++ s) = inner (item ++ s) := by
  cases index with
  | zero => rw [separated_zero, if_neg (Nat.lt_irrefl 0)]
  | succ index => rw [if_pos index.succ_pos, List.cons_append, separated_succ]

theorem noDigit_listed {radix : Nat} (sign : toDigit radix sep = none) (ends : NoDigit radix rest)
    (index : Nat) (items : List (List Char)) :
    NoDigit radix (listed sep (index + 1) items ++ rest) := by
  cases items with
  | nil => exact ends
  | cons item items =>
    rw [listed, if_pos index.succ_pos]
    exact noDigit_cons sign _

end Listed

theorem readOctets_listed (index : Nat) (octets : List (BitVec 8)) {rest : List Char}
    (ends : NoDigit 10 rest) :
    readOctets index octets.length (listed '.' index (octets.map decimal) ++ rest) =
      some (octets, rest) := by
  induction octets generalizing index with
  | nil => rfl
  | cons octet octets ih =>
    have sign : toDigit 10 '.' = none := by decide
    have next := noDigit_listed sign ends index (octets.map decimal)
    rw [List.map_cons, listed, List.length_cons, readOctets, List.append_assoc]
    dsimp only
    rw [separated_item, readOctet_decimal octet next]
    simp only [Option.bind_eq_bind, Option.bind_some]
    rw [ih (index + 1)]
    rfl

theorem readIpv4Addr_display (ip : BitVec 32) {rest : List Char} (ends : NoDigit 10 rest) :
    readIpv4Addr (displayIpv4 ip ++ rest) = some (ip, rest) := by
  have four : (octets ip).length = 4 := length_split 4 ip.toNat
  have read := readOctets_listed 0 (octets ip) ends
  rw [four] at read
  unfold readIpv4Addr displayIpv4
  rw [read, Option.map_some]
  dsimp only
  rw [join_octets]

theorem readIpv4Addr_eq_none {s : List Char} (ends : NoDigit 10 s) : readIpv4Addr s = none := by
  have octet : readOctet s = none := number_eq_none (some 3) false ends
  unfold readIpv4Addr readOctets
  rw [separated_zero, octet]
  rfl

/-- The first octet has a dot behind it. -/
theorem dotted_of_readIpv4Addr {s : List Char} {r : BitVec 32 × List Char}
    (done : readIpv4Addr s = some r) : '.' ∈ s := by
  obtain ⟨_, here, -⟩ := Option.map_eq_some_iff.mp done
  obtain ⟨⟨_, s₁⟩, first, here⟩ := Option.bind_eq_some_iff.mp here
  obtain ⟨_, here, -⟩ := Option.bind_eq_some_iff.mp here
  obtain ⟨_, second, -⟩ := Option.bind_eq_some_iff.mp here
  obtain ⟨_, dot, -⟩ := Option.bind_eq_some_iff.mp second
  rw [separated_zero] at first
  obtain ⟨taken, split, -⟩ := takes_number 8 (by decide) (some 3) false s _ first
  rw [split, givenChar_eq_some.mp dot]
  exact List.mem_append_right taken List.mem_cons_self

theorem separated_undotted {s : List Char} (undotted : '.' ∉ s) (index : Nat) :
    separated ':' index readIpv4Addr s = none := by
  cases index with
  | zero =>
    rw [separated_zero, Option.eq_none_iff_forall_ne_some]
    exact fun r done => undotted (dotted_of_readIpv4Addr done)
  | succ index =>
    rw [Option.eq_none_iff_forall_ne_some]
    intro r done
    rw [separated, if_pos index.succ_pos] at done
    obtain ⟨_, colon, done⟩ := Option.bind_eq_some_iff.mp done
    rw [givenChar_eq_some.mp colon] at undotted
    exact undotted (List.mem_cons_of_mem _ (dotted_of_readIpv4Addr done))

theorem readGroups_stop {s : List Char} (undotted : '.' ∉ s) {index : Nat} (left : Nat)
    (none : separated ':' index readGroup s = none) :
    readGroups index (left + 1) s = (([], false), s) := by
  simp only [readGroups, separated_undotted undotted, ite_self, none]

theorem readGroups_step {s rest : List Char} (undotted : '.' ∉ s) {index : Nat} (left : Nat)
    {group : BitVec 16} (some : separated ':' index readGroup s = some (group, rest)) :
    readGroups index (left + 1) s =
      ((group :: (readGroups (index + 1) left rest).1.1, (readGroups (index + 1) left rest).1.2),
        (readGroups (index + 1) left rest).2) := by
  simp only [readGroups, separated_undotted undotted, ite_self, some]

theorem undotted_listed (index : Nat) (groups : List (BitVec 16)) :
    '.' ∉ listed ':' index (groups.map lowerHex) := by
  induction groups generalizing index with
  | nil => exact List.not_mem_nil
  | cons group groups ih =>
    have digits : '.' ∉ lowerHex group := by
      intro dot
      exact toDigit_of_mem_toDigits (by decide) (by decide) group.toNat '.' dot (by decide)
    rw [List.map_cons, listed, List.mem_append, not_or]
    refine ⟨?_, ih (index + 1)⟩
    split
    · simpa using digits
    · exact digits

theorem readGroups_listed (index : Nat) (groups : List (BitVec 16)) {left : Nat}
    (room : groups.length ≤ left) {rest : List Char} (undotted : '.' ∉ rest)
    (ends : NoDigit 16 rest)
    (stops : groups.length < left → separated ':' (index + groups.length) readGroup rest = none) :
    readGroups index left (listed ':' index (groups.map lowerHex) ++ rest) =
      ((groups, false), rest) := by
  induction groups generalizing index left with
  | nil =>
    cases left with
    | zero => rfl
    | succ left =>
      have none := stops left.succ_pos
      rw [List.length_nil, Nat.add_zero] at none
      rw [List.map_nil, listed, List.nil_append, readGroups_stop undotted left none]
  | cons group groups ih =>
    obtain ⟨left, rfl⟩ := Nat.exists_eq_add_of_le' (Nat.le_trans (Nat.succ_pos _) room)
    rw [List.length_cons] at room stops
    have sign : toDigit 16 ':' = none := by decide
    have next := noDigit_listed sign ends index (groups.map lowerHex)
    have whole : '.' ∉ listed ':' index ((group :: groups).map lowerHex) ++ rest := by
      rw [List.mem_append, not_or]
      exact ⟨undotted_listed index (group :: groups), undotted⟩
    have read : separated ':' index readGroup
        (listed ':' index ((group :: groups).map lowerHex) ++ rest) =
        some (group, listed ':' (index + 1) (groups.map lowerHex) ++ rest) := by
      rw [List.map_cons, listed, List.append_assoc, separated_item, readGroup_lowerHex group next]
    rw [readGroups_step whole left read, ih (index + 1) (by omega)]
    intro more
    have none := stops (by omega)
    rwa [Nat.add_comm groups.length 1, ← Nat.add_assoc] at none

theorem noDigit_colon (s : List Char) : NoDigit 16 (':' :: s) := noDigit_cons (by decide) s

theorem readGroup_colon (s : List Char) : readGroup (':' :: s) = none :=
  number_eq_none (some 4) true (noDigit_colon s)

theorem readGroups_head (groups : List (BitVec 16)) (room : groups.length < 8) {s : List Char}
    (undotted : '.' ∉ s) :
    readGroups 0 8 (displayGroups groups ++ ':' :: ':' :: s) = ((groups, false), ':' :: ':' :: s) := by
  apply readGroups_listed 0 groups (Nat.le_of_lt room)
  · simpa using undotted
  · exact noDigit_colon _
  · intro _
    rw [Nat.zero_add]
    cases groups.length with
    | zero => rw [separated_zero, readGroup_colon]
    | succ n => rw [separated_succ, readGroup_colon]

theorem readGroups_last (groups : List (BitVec 16)) {left : Nat} (room : groups.length ≤ left) :
    readGroups 0 left (displayGroups groups) = ((groups, false), []) := by
  have none : readGroup [] = none := number_eq_none (some 4) true noDigit_nil
  rw [← List.append_nil (displayGroups groups)]
  apply readGroups_listed 0 groups room List.not_mem_nil noDigit_nil
  intro _
  cases 0 + groups.length with
  | zero => rw [separated_zero, none]
  | succ n => rfl

theorem readBack_double (head : List (BitVec 16)) (s : List Char) {tail : List (BitVec 16)}
    {ipv4 : Bool} (read : readGroups 0 (8 - (head.length + 1)) s = ((tail, ipv4), [])) :
    readBack head (':' :: ':' :: s) = some (BitVec.ofNat 128
      (join (head ++ List.replicate (8 - head.length - tail.length) 0 ++ tail)), []) := by
  unfold readBack
  rw [givenChar_cons]
  simp only [Option.bind_eq_bind, Option.bind_some]
  rw [givenChar_cons]
  simp only [Option.bind_some]
  rw [read]
  rfl

theorem readIpv6Addr_groups (groups : List (BitVec 16)) (eight : groups.length = 8) :
    readIpv6Addr (displayGroups groups) = some (BitVec.ofNat 128 (join groups), []) := by
  unfold readIpv6Addr
  rw [readGroups_last groups (Nat.le_of_eq eight)]
  exact if_pos eight

theorem readIpv6Addr_compressed (head tail : List (BitVec 16))
    (room : head.length + tail.length < 8) :
    readIpv6Addr (displayGroups head ++ ':' :: ':' :: displayGroups tail) =
      some (BitVec.ofNat 128
        (join (head ++ List.replicate (8 - head.length - tail.length) 0 ++ tail)), []) := by
  have undotted : '.' ∉ displayGroups tail := undotted_listed 0 tail
  unfold readIpv6Addr
  rw [readGroups_head head (by omega) undotted]
  dsimp only
  rw [if_neg (by omega)]
  exact readBack_double head _ (readGroups_last tail (by omega))

/-- `::ffff:` before an IPv4 address. -/
theorem readIpv6Addr_mapped (ip : BitVec 32) :
    readIpv6Addr ("::ffff:".toList ++ displayIpv4 ip) = some (BitVec.ofNat 128
      (join (List.replicate 5 0 ++ 0xFFFF :: split 16 2 ip.toNat)), []) := by
  have head : readGroups 0 8 ("::ffff:".toList ++ displayIpv4 ip) =
      (([], false), "::ffff:".toList ++ displayIpv4 ip) := by
    have ipv4 : readIpv4Addr ("::ffff:".toList ++ displayIpv4 ip) = none :=
      readIpv4Addr_eq_none (noDigit_cons (by decide) _)
    have group : readGroup ("::ffff:".toList ++ displayIpv4 ip) = none := readGroup_colon _
    rw [readGroups, separated_zero, separated_zero, ipv4, group, ite_self]
  have last : readGroups 1 6 (':' :: displayIpv4 ip) = ((split 16 2 ip.toNat, true), []) := by
    have read : readIpv4Addr (displayIpv4 ip ++ []) = some (ip, []) :=
      readIpv4Addr_display ip noDigit_nil
    rw [List.append_nil] at read
    rw [readGroups, if_pos (by decide), separated_succ, read]
  have tail : readGroups 0 7 ("ffff:".toList ++ displayIpv4 ip) =
      ((0xFFFF :: split 16 2 ip.toNat, true), []) := by
    have ipv4 : readIpv4Addr ("ffff:".toList ++ displayIpv4 ip) = none :=
      readIpv4Addr_eq_none (noDigit_cons (by decide) _)
    have group : readGroup ("ffff:".toList ++ displayIpv4 ip) =
        some (0xFFFF, ':' :: displayIpv4 ip) :=
      readGroup_lowerHex 0xFFFF (noDigit_colon _)
    rw [readGroups, separated_zero, separated_zero, ipv4, group, ite_self]
    dsimp only
    rw [last]
  unfold readIpv6Addr
  rw [head]
  exact readBack_double [] _ tail

section Spans

/-- The span is one of zeroes. -/
structure Span.Zero (seen : List (BitVec 16)) (span : Span) : Prop where
  inside : span.start + span.len ≤ seen.length
  zero : ∀ j, span.start ≤ j → j < span.start + span.len → seen[j]? = some 0

/-- What the loop knows about the segments that it has seen. -/
structure Zeroes.Tracks (seen : List (BitVec 16)) (zeroes : Zeroes) : Prop where
  longest : zeroes.longest.Zero seen
  current : zeroes.current.Zero seen
  last : zeroes.current.len = 0 ∨ zeroes.current.start + zeroes.current.len = seen.length

theorem Span.Zero.append {seen : List (BitVec 16)} {span : Span} (zero : span.Zero seen)
    (more : List (BitVec 16)) : span.Zero (seen ++ more) := by
  have inside := zero.inside
  constructor
  · rw [List.length_append]
    omega
  · intro j low high
    rw [List.getElem?_append_left (by omega)]
    exact zero.zero j low high

theorem Span.zero_empty (seen : List (BitVec 16)) : Span.Zero seen {} :=
  ⟨Nat.zero_le _, fun j _ before => absurd before (Nat.not_lt_zero j)⟩

/-- A span that ends with the segments seen goes on with the next one, if that is zero. -/
theorem Span.Zero.grow {seen : List (BitVec 16)} {span : Span} (zero : span.Zero seen)
    (last : span.start + span.len = seen.length) :
    Span.Zero (seen ++ [0]) { start := span.start, len := span.len + 1 } := by
  constructor
  · rw [List.length_append, List.length_singleton]
    dsimp only
    omega
  · intro j low high
    dsimp only at low high
    by_cases old : j < seen.length
    · rw [List.getElem?_append_left old]
      exact zero.zero j low (by omega)
    · have new : j = seen.length := by omega
      rw [new, List.getElem?_concat_length]

theorem Zeroes.Tracks.visit {seen : List (BitVec 16)} {zeroes : Zeroes} (tracks : zeroes.Tracks seen)
    (segment : BitVec 16) : (zeroes.visit seen.length segment).Tracks (seen ++ [segment]) := by
  unfold Zeroes.visit
  split
  · rename_i zero
    subst zero
    have grown : ∃ span : Span, span.Zero seen ∧ span.start + span.len = seen.length ∧
        span.start = (if zeroes.current.len = 0 then seen.length else zeroes.current.start) ∧
          span.len = zeroes.current.len := by
      by_cases fresh : zeroes.current.len = 0
      · refine ⟨{ start := seen.length }, ⟨Nat.le_refl _, ?_⟩, rfl, (if_pos fresh).symm, fresh.symm⟩
        intro j low high
        exact absurd high (Nat.not_lt.mpr low)
      · have last := tracks.last.resolve_left fresh
        exact ⟨zeroes.current, tracks.current, last, (if_neg fresh).symm, rfl⟩
    obtain ⟨span, zero, last, start, len⟩ := grown
    have next := zero.grow last
    rw [start, len] at next
    refine ⟨?_, next, .inr ?_⟩
    · dsimp only
      split
      · exact next
      · exact tracks.longest.append [0]
    · dsimp only
      rw [← start, ← len, List.length_append, List.length_singleton, ← last]
      rfl
  · exact ⟨tracks.longest.append _, Span.zero_empty _, .inl rfl⟩

theorem Zeroes.Tracks.visitFrom {seen : List (BitVec 16)} {zeroes : Zeroes}
    (tracks : zeroes.Tracks seen) (segments : List (BitVec 16)) :
    (zeroes.visitFrom seen.length segments).Tracks (seen ++ segments) := by
  induction segments generalizing seen zeroes with
  | nil => rwa [List.append_nil]
  | cons segment segments ih =>
    have next := ih (tracks.visit segment)
    rwa [List.length_append, List.append_assoc] at next

theorem Zeroes.longest_zero (segments : List (BitVec 16)) :
    (Zeroes.visitFrom {} 0 segments).longest.Zero segments := by
  have start : Zeroes.Tracks [] {} := ⟨Span.zero_empty [], Span.zero_empty [], .inl rfl⟩
  exact (start.visitFrom segments).longest

theorem Span.Zero.split {segments : List (BitVec 16)} {span : Span} (zero : span.Zero segments) :
    segments.take span.start ++ List.replicate span.len 0 ++
      segments.drop (span.start + span.len) = segments := by
  have middle : (segments.drop span.start).take span.len = List.replicate span.len 0 := by
    apply List.ext_getElem?
    intro j
    rw [List.getElem?_take, List.getElem?_drop, List.getElem?_replicate]
    split
    · exact zero.zero (span.start + j) (by omega) (by omega)
    · rfl
  rw [← middle, ← List.drop_drop, List.append_assoc, List.take_append_drop, List.take_append_drop]

end Spans

theorem segments_of_mapped {ip : BitVec 128} {ipv4 : BitVec 32}
    (mapped : toIpv4Mapped ip = some ipv4) :
    List.replicate 5 0 ++ 0xFFFF :: split 16 2 ipv4.toNat = segments ip := by
  unfold toIpv4Mapped at mapped
  split at mapped
  · rename_i front
    cases mapped
    have eight : (segments ip).length = 8 := length_split 8 ip.toNat
    have two : ((segments ip).drop 6).length = 2 := by rw [List.length_drop, eight]
    have back := split_join ((segments ip).drop 6)
    have bound : join ((segments ip).drop 6) < 2 ^ 32 := by
      rw [← back, join_split, two]
      exact Nat.mod_lt _ (by decide)
    rw [two] at back
    rw [BitVec.toNat_ofNat, Nat.mod_eq_of_lt bound, back]
    have whole := List.take_append_drop 6 (segments ip)
    rw [front] at whole
    exact whole
  · cases mapped

theorem readIpv6Addr_display (ip : BitVec 128) : readIpv6Addr (displayIpv6 ip) = some (ip, []) := by
  have eight : (segments ip).length = 8 := length_split 8 ip.toNat
  unfold displayIpv6
  split
  · rename_i ipv4 mapped
    rw [readIpv6Addr_mapped, segments_of_mapped mapped, join_segments]
  · have zero := Zeroes.longest_zero (segments ip)
    generalize (Zeroes.visitFrom {} 0 (segments ip)).longest = span at zero
    dsimp only
    split
    · have inside := zero.inside
      rw [eight] at inside
      have head : ((segments ip).take span.start).length = span.start := by
        rw [List.length_take, eight]
        omega
      have tail : ((segments ip).drop (span.start + span.len)).length =
          8 - (span.start + span.len) := by
        rw [List.length_drop, eight]
      have middle : 8 - span.start - (8 - (span.start + span.len)) = span.len := by omega
      rw [readIpv6Addr_compressed _ _ (by omega), head, tail, middle, zero.split, join_segments]
    · rw [readIpv6Addr_groups _ eight, join_segments]

theorem readIpv4Addr_displayIpv6 (ip : BitVec 128) : readIpv4Addr (displayIpv6 ip) = none := by
  unfold displayIpv6
  split
  · exact readIpv4Addr_eq_none (noDigit_cons (by decide) _)
  · have undotted : ∀ groups, '.' ∉ displayGroups groups := undotted_listed 0
    have none : ∀ s, '.' ∉ s → readIpv4Addr s = none := fun s free => separated_undotted free 0
    dsimp only
    split
    · apply none
      simp [undotted]
    · exact none _ (undotted (segments ip))

/-- An address is read back from what is written of it. -/
theorem IpAddr.parse_display (ip : IpAddr) : IpAddr.parse ip.display = .ok ip := by
  have read : readIpAddr ip.display = some (ip, []) := by
    unfold readIpAddr
    cases ip with
    | v4 bits =>
      have first : readIpv4Addr (displayIpv4 bits ++ []) = some (bits, []) :=
        readIpv4Addr_display bits noDigit_nil
      rw [List.append_nil] at first
      rw [IpAddr.display, first]
      rfl
    | v6 bits =>
      rw [IpAddr.display, readIpv4Addr_displayIpv6, readIpv6Addr_display]
      rfl
  unfold IpAddr.parse whole
  rw [read]
  rfl

end Net
