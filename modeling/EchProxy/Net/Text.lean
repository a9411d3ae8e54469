import EchProxy.Framework.Digits
import EchProxy.Framework.Str
import EchProxy.Net

/-! # The Text of IP Addresses

    `IpAddr::to_string` and `str::parse::<IpAddr>`, as the standard library
    has them: dotted IPv4, IPv6 in hexadecimal groups with the longest run of
    zeros left out, IPv4-mapped addresses with their dotted part.  An address
    that is printed is parsed back.
-/

namespace EchProxy

/-! ## Octets and segments -/

/-- `Ipv4Addr::octets`. -/
def Ipv4Addr.octets (ip : Ipv4Addr) : Bytes := Digits.toBytes 4 ip.bits.toNat

/-- `Ipv4Addr::from([u8; 4])`. -/
def Ipv4Addr.ofOctets (octets : Bytes) : Ipv4Addr := ⟨BitVec.ofNat 32 (Digits.ofBytes octets)⟩

/-- `Ipv6Addr::octets`. -/
def Ipv6Addr.octets (ip : Ipv6Addr) : Bytes := Digits.toBytes 16 ip.bits.toNat

/-- `Ipv6Addr::from([u8; 16])`. -/
def Ipv6Addr.ofOctets (octets : Bytes) : Ipv6Addr := ⟨BitVec.ofNat 128 (Digits.ofBytes octets)⟩

/-- `Ipv6Addr::segments`. -/
def Ipv6Addr.segments (ip : Ipv6Addr) : List (BitVec 16) :=
  [ip.segment 0, ip.segment 1, ip.segment 2, ip.segment 3,
    ip.segment 4, ip.segment 5, ip.segment 6, ip.segment 7]

/-- The address with these segments. -/
def Ipv6Addr.ofSegments (segments : List (BitVec 16)) : Ipv6Addr :=
  ⟨BitVec.ofNat 128 (segments.foldl (fun n segment => n * 0x10000 + segment.toNat) 0)⟩

theorem Ipv4Addr.ofOctets_octets (ip : Ipv4Addr) : ofOctets ip.octets = ip := by
  have hlt : ip.bits.toNat < 2 ^ 32 := ip.bits.isLt
  rw [ofOctets, octets, Digits.ofBytes_toBytes (by omega), BitVec.ofNat_toNat]
  rfl

theorem Ipv4Addr.octets_ofOctets {octets : Bytes} (h : octets.length = 4) :
    (ofOctets octets).octets = octets := by
  have hlt := Digits.ofBytes_lt octets
  rw [h] at hlt
  rw [ofOctets, Ipv4Addr.octets, BitVec.toNat_ofNat, Nat.mod_eq_of_lt (by omega), ← h,
    Digits.toBytes_ofBytes]

theorem Ipv6Addr.ofOctets_octets (ip : Ipv6Addr) : ofOctets ip.octets = ip := by
  have hlt : ip.bits.toNat < 2 ^ 128 := ip.bits.isLt
  rw [ofOctets, octets, Digits.ofBytes_toBytes (by omega), BitVec.ofNat_toNat]
  rfl

theorem Ipv6Addr.octets_ofOctets {octets : Bytes} (h : octets.length = 16) :
    (ofOctets octets).octets = octets := by
  have hlt := Digits.ofBytes_lt octets
  rw [h] at hlt
  rw [ofOctets, Ipv6Addr.octets, BitVec.toNat_ofNat, Nat.mod_eq_of_lt (by omega), ← h,
    Digits.toBytes_ofBytes]

/-- The octets one by one. -/
theorem Ipv4Addr.ofOctets_octet (ip : Ipv4Addr) :
    ofOctets [⟨ip.octet 0⟩, ⟨ip.octet 1⟩, ⟨ip.octet 2⟩, ⟨ip.octet 3⟩] = ip := by
  obtain ⟨bits⟩ := ip
  have hlt : bits.toNat < 2 ^ 32 := bits.isLt
  rw [ofOctets, mk.injEq]
  apply BitVec.eq_of_toNat_eq
  simp only [Digits.ofBytes, Digits.value, octet, List.map_cons, List.map_nil, List.foldl_cons,
    List.foldl_nil, UInt8.toNat, BitVec.toNat_ofNat, BitVec.extractLsb'_toNat,
    Nat.shiftRight_eq_div_pow]
  omega

/-- A segment behind those above it. -/
theorem Ipv6Addr.append_segment (n shift : Nat) :
    n / 2 ^ (shift + 16) * 0x10000 + n / 2 ^ shift % 2 ^ 16 = n / 2 ^ shift := by
  rw [Nat.pow_add, ← Nat.div_div_eq_div_mul]
  omega

theorem Ipv6Addr.ofSegments_segments (ip : Ipv6Addr) : ofSegments ip.segments = ip := by
  obtain ⟨bits⟩ := ip
  have hlt : bits.toNat < 2 ^ 128 := bits.isLt
  -- nothing stands above the first segment
  have hfirst : bits.toNat / 2 ^ 112 % 2 ^ 16 = bits.toNat / 2 ^ 112 :=
    Nat.mod_eq_of_lt (by omega)
  rw [ofSegments, mk.injEq]
  apply BitVec.eq_of_toNat_eq
  rw [BitVec.toNat_ofNat]
  simp only [segments, segment, List.foldl_cons, List.foldl_nil, BitVec.extractLsb'_toNat]
  simp only [Nat.shiftRight_eq_div_pow]
  rw [Nat.zero_mul, Nat.zero_add, hfirst, append_segment _ 96, append_segment _ 80,
    append_segment _ 64, append_segment _ 48, append_segment _ 32, append_segment _ 16,
    append_segment _ 0, Nat.pow_zero, Nat.div_one, Nat.mod_eq_of_lt hlt]

namespace IpText

/-! ## Printing -/

/-- `{}` of an octet. -/
def displayOctet (octet : BitVec 8) : Text := Nat.toDigits 10 octet.toNat

/-- `Ipv4Addr::to_string`. -/
def displayIpv4 (ip : Ipv4Addr) : Text :=
  displayOctet (ip.octet 0) ++ '.' :: displayOctet (ip.octet 1) ++ '.' :: displayOctet (ip.octet 2)
    ++ '.' :: displayOctet (ip.octet 3)

/-- `{:x}` of a segment. -/
def displaySegment (segment : BitVec 16) : Text := Nat.toDigits 16 segment.toNat

/-- The segments behind the first one. -/
def displayTail (segments : List (BitVec 16)) : Text :=
  segments.flatMap fun segment => ':' :: displaySegment segment

/-- `fmt_subslice`. -/
def displaySegments : List (BitVec 16) → Text
  | [] => []
  | first :: tail => displaySegment first ++ displayTail tail

/-- `Span`: a run of zeros. -/
structure Span where
  start : Nat
  len : Nat
  deriving DecidableEq

/-- The loop that finds the longest run of zeros, at index `i`. -/
def zeroLoop (i : Nat) (longest current : Span) : List (BitVec 16) → Span
  | [] => longest
  | segment :: segments =>
    if segment = 0 then
      let current : Span := ⟨if current.len = 0 then i else current.start, current.len + 1⟩
      zeroLoop (i + 1) (if longest.len < current.len then current else longest) current segments
    else zeroLoop (i + 1) longest ⟨0, 0⟩ segments

/-- `Ipv6Addr::to_string`. -/
def displayIpv6 (ip : Ipv6Addr) : Text :=
  match ip.toIpv4Mapped with
  | some ipv4 => "::ffff:".toList ++ displayIpv4 ipv4
  | none =>
    let zeroes := zeroLoop 0 ⟨0, 0⟩ ⟨0, 0⟩ ip.segments
    if 1 < zeroes.len then
      displaySegments (ip.segments.take zeroes.start) ++ "::".toList
        ++ displaySegments (ip.segments.drop (zeroes.start + zeroes.len))
    else displaySegments ip.segments

/-- `IpAddr::to_string`. -/
def displayIp : IpAddr → Text
  | .v4 ip => displayIpv4 ip
  | .v6 ip => displayIpv6 ip

/-! ## Parsing -/

/-- `read_separator`: the separator comes before every item but the first. -/
def readSeparator {α : Type} (sep : Char) (index : Nat) (inner : Text → Option (α × Text))
    (s : Text) : Option (α × Text) :=
  if 0 < index then (Str.stripPrefix [sep] s).bind inner else inner s

/-- An octet: a zero in front could mean octal. -/
def readOctet (s : Text) : Option (UInt8 × Text) :=
  (Digits.readNumber 10 3 0xff false s).map fun p => (UInt8.ofNat p.1, p.2)

/-- `read_ipv4_addr`. -/
def readIpv4 (s : Text) : Option (Ipv4Addr × Text) := do
  let (a, s) ← readSeparator '.' 0 readOctet s
  let (b, s) ← readSeparator '.' 1 readOctet s
  let (c, s) ← readSeparator '.' 2 readOctet s
  let (d, s) ← readSeparator '.' 3 readOctet s
  return (Ipv4Addr.ofOctets [a, b, c, d], s)

/-- A group of an IPv6 address. -/
def readGroup (s : Text) : Option (BitVec 16 × Text) :=
  (Digits.readNumber 16 4 0xffff true s).map fun p => (BitVec.ofNat 16 p.1, p.2)

/-- The two segments of an embedded IPv4 address. -/
def embedded (ip : Ipv4Addr) : List (BitVec 16) :=
  [ip.octet 0 ++ ip.octet 1, ip.octet 2 ++ ip.octet 3]

/-- `read_groups`, at index `i` with room for `left` more: the groups, whether
    they end with an IPv4 address, and what is left of the text. -/
def readGroups (i : Nat) : Nat → Text → List (BitVec 16) × Bool × Text
  | 0, s => ([], false, s)
  | left + 1, s =>
    -- an IPv4 address takes two groups
    match if 0 < left then readSeparator ':' i readIpv4 s else none with
    | some (ip, rest) => (embedded ip, true, rest)
    | none =>
      match readSeparator ':' i readGroup s with
      | some (group, rest) =>
        let (groups, ipv4, rest) := readGroups (i + 1) left rest
        (group :: groups, ipv4, rest)
      | none => ([], false, s)

/-- `read_ipv6_addr`. -/
def readIpv6 (s : Text) : Option (Ipv6Addr × Text) :=
  let (head, headIpv4, rest) := readGroups 0 8 s
  if head.length = 8 then some (Ipv6Addr.ofSegments head, rest)
  else if headIpv4 then none
  else do
    let rest ← Str.stripPrefix "::".toList rest
    let (tail, _, rest) := readGroups 0 (8 - (head.length + 1)) rest
    let zeroes := List.replicate (8 - head.length - tail.length) 0
    return (Ipv6Addr.ofSegments (head ++ zeroes ++ tail), rest)

/-- `read_ip_addr`. -/
def readIp (s : Text) : Option (IpAddr × Text) :=
  match readIpv4 s with
  | some (ip, rest) => some (.v4 ip, rest)
  | none => (readIpv6 s).map fun p => (.v6 p.1, p.2)

/-- `str::parse::<IpAddr>`: nothing may be left. -/
def parseIp (s : Text) : Option IpAddr :=
  match readIp s with
  | some (ip, []) => some ip
  | _ => none

/-- The text form of the standard library. -/
def std : IpText := ⟨parseIp, displayIp⟩

/-! ## Numbers that were printed -/

open Digits (Ends)

theorem readOctet_display (octet : BitVec 8) {rest : Text} (hrest : Ends 10 rest) :
    readOctet (displayOctet octet ++ rest) = some (⟨octet⟩, rest) := by
  have hlt : octet.toNat < 256 := octet.isLt
  have hbyte : UInt8.ofNat octet.toNat = ⟨octet⟩ := UInt8.ofNat_toNat (x := ⟨octet⟩)
  rw [readOctet, displayOctet, Digits.readNumber_toDigits (by decide) (by decide) (by omega)
    (by decide) (by omega) (.inr (by decide)) hrest, Option.map_some, hbyte]

theorem readGroup_display (segment : BitVec 16) {rest : Text} (hrest : Ends 16 rest) :
    readGroup (displaySegment segment ++ rest) = some (segment, rest) := by
  have hlt : segment.toNat < 65536 := segment.isLt
  rw [readGroup, displaySegment, Digits.readNumber_toDigits (by decide) (by decide) (by omega)
    (by decide) (by omega) (.inl rfl) hrest, Option.map_some, BitVec.ofNat_toNat]
  simp

/-- Behind a separator no digit goes on. -/
theorem ends_cons {radix : Nat} {c : Char} {rest : Text} (h : Digits.toDigit radix c = none) :
    Ends radix (c :: rest) := by
  intro c' hc'
  rw [List.head?_cons, Option.mem_some_iff] at hc'
  rw [← hc', h]

theorem ends_nil {radix : Nat} : Ends radix [] := fun c hc => by cases hc

theorem readSeparator_cons {α : Type} {sep : Char} {index : Nat} (hindex : 0 < index)
    (inner : Text → Option (α × Text)) (s : Text) :
    readSeparator sep index inner (sep :: s) = inner s := by
  have hstrip : Str.stripPrefix [sep] (sep :: s) = some s := Str.stripPrefix_append [sep] s
  rw [readSeparator, if_pos hindex, hstrip, Option.bind_some]

theorem readIpv4_display (ip : Ipv4Addr) {rest : Text} (hrest : Ends 10 rest) :
    readIpv4 (displayIpv4 ip ++ rest) = some (ip, rest) := by
  have hdot : ∀ s : Text, Ends 10 ('.' :: s) := fun s => ends_cons rfl
  have htext : displayIpv4 ip ++ rest = displayOctet (ip.octet 0) ++ '.' ::
      (displayOctet (ip.octet 1) ++ '.' :: (displayOctet (ip.octet 2) ++ '.' ::
        (displayOctet (ip.octet 3) ++ rest))) := by
    simp [displayIpv4]
  have hfirst : ∀ s, readSeparator '.' 0 readOctet s = readOctet s := fun s => rfl
  rw [htext, readIpv4, hfirst, readOctet_display _ (hdot _)]
  dsimp only [Option.bind_eq_bind, Option.bind_some]
  rw [readSeparator_cons (by decide), readOctet_display _ (hdot _)]
  dsimp only [Option.bind_some]
  rw [readSeparator_cons (by decide), readOctet_display _ (hdot _)]
  dsimp only [Option.bind_some]
  rw [readSeparator_cons (by decide), readOctet_display _ hrest]
  dsimp only [Option.bind_some]
  rw [Ipv4Addr.ofOctets_octet]
  rfl

/-! ## What is no IPv4 address -/

/-- A number that does not end at a dot is no IPv4 address. -/
theorem readIpv4_eq_none {s : Text} (h : (Digits.span 10 s).2.head? ≠ some '.') :
    readIpv4 s = none := by
  rw [readIpv4]
  cases hoctet : readSeparator '.' 0 readOctet s with
  | none => rfl
  | some p =>
    have hread : readOctet s = some p := hoctet
    have hrest : p.2 = (Digits.span 10 s).2 := by
      simp only [readOctet, Option.map_eq_some_iff, Digits.readNumber] at hread
      obtain ⟨number, hnumber, rfl⟩ := hread
      split at hnumber
      · cases hnumber
      · split at hnumber
        · cases hnumber
        · simp only [Option.ite_none_right_eq_some, Option.some.injEq] at hnumber
          exact hnumber.2 ▸ rfl
    -- the second octet would need a dot
    have hstop : Str.stripPrefix ['.'] p.2 = none := by
      cases hp : p.2 with
      | nil => rfl
      | cons c rest =>
        refine Str.stripPrefix_of_ne [] rest fun hc => h ?_
        rw [← hrest, hp, hc]
        rfl
    have hsecond : readSeparator '.' 1 readOctet p.2 = none := by
      rw [readSeparator, if_pos (by decide), hstop]
      rfl
    dsimp only [Option.bind_eq_bind, Option.bind_some]
    rw [hsecond]
    rfl

/-- What is left behind digits starts inside a text without dots, or behind
    it. -/
theorem span_rest_ne_dot {radix : Nat} {s rest : Text} (hs : '.' ∉ s) (hends : Ends radix rest)
    (hrest : rest.head? ≠ some '.') : (Digits.span radix (s ++ rest)).2.head? ≠ some '.' := by
  induction s with
  | nil => rwa [List.nil_append, Digits.span_of_ends hends]
  | cons c s ih =>
    rw [List.cons_append, Digits.span]
    cases Digits.toDigit radix c with
    | some digit => exact ih fun hmem => hs (List.mem_cons_of_mem _ hmem)
    | none => exact fun heq => hs (Option.some.inj heq ▸ List.mem_cons_self)

/-- Where a group may end: at the end of the text or at a colon. -/
def AtColon (rest : Text) : Prop := ∀ c ∈ rest.head?, c = ':'

theorem AtColon.ends {rest : Text} (h : AtColon rest) {radix : Nat} : Ends radix rest := by
  intro c hc
  rw [h c hc]
  simp [Digits.toDigit]

theorem readIpv4_segment (segment : BitVec 16) {rest : Text} (hrest : AtColon rest) :
    readIpv4 (displaySegment segment ++ rest) = none := by
  refine readIpv4_eq_none (span_rest_ne_dot (fun hmem => ?_) hrest.ends fun hdot => ?_)
  · have hdigit := Digits.isSome_of_mem_toDigits (by decide) (by decide) hmem
    revert hdigit
    decide
  · have hcolon := hrest '.' hdot
    revert hcolon
    decide

theorem readIpv4_atColon {rest : Text} (hrest : AtColon rest) : readIpv4 rest = none := by
  refine readIpv4_eq_none fun hdot => ?_
  rw [Digits.span_of_ends hrest.ends] at hdot
  have hcolon := hrest '.' hdot
  revert hcolon
  decide

/-! ## Groups that were printed -/

/-- Where a list of groups ends: at the end of the text, or at two colons. -/
def AtGap (rest : Text) : Prop := rest = [] ∨ ∃ more, rest = ':' :: ':' :: more

theorem AtGap.atColon {rest : Text} (h : AtGap rest) : AtColon rest := by
  intro c hc
  rcases h with rfl | ⟨more, rfl⟩
  · cases hc
  · exact (Option.some.inj hc).symm

theorem readGroup_atColon {rest : Text} (hrest : AtColon rest) : readGroup rest = none := by
  rw [readGroup, Digits.readNumber, Digits.span_of_ends hrest.ends]
  rfl

/-- At a gap there is no next item. -/
theorem readSeparator_atGap {α : Type} {inner : Text → Option (α × Text)}
    (hinner : ∀ s, AtColon s → inner s = none) {rest : Text} (hrest : AtGap rest) (i : Nat) :
    readSeparator ':' i inner rest = none := by
  rw [readSeparator]
  split
  · rcases hrest with rfl | ⟨more, rfl⟩
    · rfl
    · have hstrip : Str.stripPrefix [':'] (':' :: ':' :: more) = some (':' :: more) :=
        Str.stripPrefix_append [':'] _
      rw [hstrip, Option.bind_some]
      exact hinner _ fun c hc => (Option.some.inj hc).symm
  · exact hinner _ hrest.atColon

/-- No groups are read at a gap. -/
theorem readGroups_atGap {rest : Text} (hrest : AtGap rest) (i left : Nat) :
    readGroups i left rest = ([], false, rest) := by
  cases left with
  | zero => rfl
  | succ left =>
    rw [readGroups, readSeparator_atGap (fun s => readIpv4_atColon) hrest, ite_self,
      readSeparator_atGap (fun s => readGroup_atColon) hrest]

theorem atColon_displayTail (segments : List (BitVec 16)) {rest : Text} (hrest : AtGap rest) :
    AtColon (displayTail segments ++ rest) := by
  cases segments with
  | nil => exact hrest.atColon
  | cons segment segments => exact fun c hc => (Option.some.inj hc).symm

/-- One group that was printed, behind its separator if it has one. -/
theorem readGroups_cons {i left : Nat} {s : Text} (segment : BitVec 16) (rest : Text)
    (hipv4 : readSeparator ':' i readIpv4 s = none)
    (hgroup : readSeparator ':' i readGroup s = some (segment, rest)) :
    readGroups i (left + 1) s =
      (segment :: (readGroups (i + 1) left rest).1, (readGroups (i + 1) left rest).2) := by
  rw [readGroups, hipv4, ite_self, hgroup]

theorem readGroups_displayTail {segments : List (BitVec 16)} {i left : Nat} (hi : 0 < i)
    (hfits : segments.length ≤ left) {rest : Text} (hrest : AtGap rest) :
    readGroups i left (displayTail segments ++ rest) = (segments, false, rest) := by
  induction segments generalizing i left with
  | nil => exact readGroups_atGap hrest i left
  | cons segment segments ih =>
    obtain ⟨left, rfl⟩ : ∃ m, left = m + 1 :=
      ⟨left - 1, by rw [List.length_cons] at hfits; omega⟩
    have htext : displayTail (segment :: segments) ++ rest =
        ':' :: (displaySegment segment ++ (displayTail segments ++ rest)) := by
      simp [displayTail]
    have hcolon := atColon_displayTail segments hrest
    rw [htext, readGroups_cons segment (displayTail segments ++ rest),
      ih (by omega) (Nat.le_of_succ_le_succ hfits)]
    · rw [readSeparator_cons hi, readIpv4_segment _ hcolon]
    · rw [readSeparator_cons hi, readGroup_display _ hcolon.ends]

/-- **Groups that were printed are read back.** -/
theorem readGroups_displaySegments (segments : List (BitVec 16)) {left : Nat}
    (hfits : segments.length ≤ left) {rest : Text} (hrest : AtGap rest) :
    readGroups 0 left (displaySegments segments ++ rest) = (segments, false, rest) := by
  cases segments with
  | nil => exact readGroups_atGap hrest 0 left
  | cons segment segments =>
    obtain ⟨left, rfl⟩ : ∃ m, left = m + 1 :=
      ⟨left - 1, by rw [List.length_cons] at hfits; omega⟩
    have hcolon := atColon_displayTail segments hrest
    rw [displaySegments, List.append_assoc,
      readGroups_cons segment (displayTail segments ++ rest),
      readGroups_displayTail (by decide) (Nat.le_of_succ_le_succ hfits) hrest]
    · exact readIpv4_segment _ hcolon
    · exact readGroup_display _ hcolon.ends

/-! ## The run of zeros -/

/-- The span covers zeros only. -/
def Span.Zero (span : Span) (segments : List (BitVec 16)) : Prop :=
  ∀ i, span.start ≤ i → i < span.start + span.len → segments[i]? = some 0

/-- The loop keeps two runs of zeros of what it has seen; the current one ends
    where it is. -/
theorem zeroLoop_zero (seen : List (BitVec 16)) {rest : List (BitVec 16)} {longest current : Span}
    (hlongest : longest.Zero (seen ++ rest)) (hcurrent : current.Zero (seen ++ rest))
    (hends : current.len = 0 ∨ current.start + current.len = seen.length) :
    (zeroLoop seen.length longest current rest).Zero (seen ++ rest) := by
  induction rest generalizing seen longest current with
  | nil => exact hlongest
  | cons segment rest ih =>
    have hmove : seen ++ segment :: rest = (seen ++ [segment]) ++ rest := by simp
    have hnext : (seen ++ [segment]).length = seen.length + 1 := by simp
    rw [zeroLoop]
    split
    · next hzero =>
      -- the current run grows, or begins here
      have hhere : (seen ++ segment :: rest)[seen.length]? = some 0 := by simp [hzero]
      have hgrown : Span.Zero ⟨if current.len = 0 then seen.length else current.start,
          current.len + 1⟩ (seen ++ segment :: rest) := by
        intro i hstart hend
        dsimp only at hstart hend
        by_cases hi : i = seen.length
        · rw [hi, hhere]
        · split at hstart
          · next hnew => rw [if_pos hnew] at hend; omega
          · next hold =>
            rw [if_neg hold] at hend
            exact hcurrent i hstart (by omega)
      rw [hmove] at hlongest hgrown ⊢
      rw [← hnext]
      refine ih _ ?_ hgrown ?_
      · by_cases hlonger : longest.len < current.len + 1
        · rw [if_pos hlonger]
          exact hgrown
        · rw [if_neg hlonger]
          exact hlongest
      · right
        dsimp only
        split <;> omega
    · rw [hmove] at hlongest ⊢
      rw [← hnext]
      -- the run is broken, so the current one is empty again
      have hempty : Span.Zero ⟨0, 0⟩ (seen ++ [segment] ++ rest) :=
        fun i hstart hend => absurd hend (by dsimp only at hstart ⊢; omega)
      exact ih _ hlongest hempty (.inl rfl)

theorem zeroLoop_segments (segments : List (BitVec 16)) :
    (zeroLoop 0 ⟨0, 0⟩ ⟨0, 0⟩ segments).Zero segments := by
  have hempty : Span.Zero ⟨0, 0⟩ segments :=
    fun i hstart hend => absurd hend (by dsimp only at hstart ⊢; omega)
  exact zeroLoop_zero [] hempty hempty (.inl rfl)

/-- A span of zeros can be cut out and put back. -/
theorem Span.Zero.split {span : Span} {segments : List (BitVec 16)} (h : span.Zero segments)
    (hpos : 0 < span.len) :
    span.start + span.len ≤ segments.length ∧
      segments.take span.start ++ List.replicate span.len 0
        ++ segments.drop (span.start + span.len) = segments := by
  have hle : span.start + span.len ≤ segments.length := by
    have hlast := h (span.start + span.len - 1) (by omega) (by omega)
    have hlt := (List.getElem?_eq_some_iff.mp hlast).1
    omega
  refine ⟨hle, ?_⟩
  have hzeroes : List.replicate span.len 0 = (segments.drop span.start).take span.len := by
    refine List.ext_getElem? fun i => ?_
    by_cases hi : i < span.len
    · rw [List.getElem?_replicate, if_pos hi, List.getElem?_take_of_lt hi, List.getElem?_drop,
        h _ (by omega) (by omega)]
    · rw [List.getElem?_eq_none (by simp; omega), List.getElem?_eq_none (by simp; omega)]
  rw [hzeroes, List.append_assoc, ← List.drop_drop, List.take_append_drop,
    List.take_append_drop]

/-! ## The round trip -/

/-- The segments of an IPv4-mapped address. -/
theorem ofSegments_mapped (ipv4 : Ipv4Addr) :
    Ipv6Addr.ofSegments (List.replicate 5 0 ++ 0xffff :: embedded ipv4) = Ipv6Addr.mapped ipv4 := by
  have happend : ∀ {m n : Nat} (x : BitVec m) (y : BitVec n),
      (x ++ y).toNat = x.toNat * 2 ^ n + y.toNat := by
    intro m n x y
    rw [BitVec.toNat_append, ← Nat.shiftLeft_add_eq_or_of_lt y.isLt, Nat.shiftLeft_eq]
  obtain ⟨bits⟩ := ipv4
  have hlt : bits.toNat < 2 ^ 32 := bits.isLt
  have hzero : (0 : BitVec 16).toNat = 0 := rfl
  have hmark : (0xffff : BitVec 16).toNat = 0xffff := rfl
  have hmapped : (0xffff : BitVec 96).toNat = 0xffff := rfl
  rw [Ipv6Addr.ofSegments, Ipv6Addr.mapped, Ipv6Addr.mk.injEq]
  apply BitVec.eq_of_toNat_eq
  rw [happend]
  simp only [List.replicate, embedded, hzero, hmark, hmapped, Ipv4Addr.octet, List.cons_append,
    List.nil_append, List.foldl_cons, List.foldl_nil, BitVec.toNat_ofNat, happend,
    BitVec.extractLsb'_toNat, Nat.shiftRight_eq_div_pow]
  omega

theorem readIpv6_mapped (ipv4 : Ipv4Addr) :
    readIpv6 ("::ffff:".toList ++ displayIpv4 ipv4) = some (Ipv6Addr.mapped ipv4, []) := by
  have hfirst : ∀ s, readGroups 0 8 (':' :: ':' :: s) = ([], false, ':' :: ':' :: s) :=
    fun s => readGroups_atGap (.inr ⟨s, rfl⟩) 0 8
  -- the group `ffff`, and then the dotted part
  have hrest : AtColon (':' :: displayIpv4 ipv4) := fun c hc => (Option.some.inj hc).symm
  have hdotted : readGroups 1 6 (':' :: displayIpv4 ipv4) = (embedded ipv4, true, []) := by
    have hread := readIpv4_display ipv4 ends_nil
    rw [List.append_nil] at hread
    rw [readGroups, if_pos (by decide), readSeparator_cons (by decide), hread]
  have hgroups : readGroups 0 7 (displaySegment 0xffff ++ ':' :: displayIpv4 ipv4) =
      (0xffff :: embedded ipv4, true, []) := by
    rw [readGroups_cons 0xffff (':' :: displayIpv4 ipv4), hdotted]
    · exact readIpv4_segment 0xffff hrest
    · exact readGroup_display 0xffff hrest.ends
  have htext : "::ffff:".toList ++ displayIpv4 ipv4 =
      ':' :: ':' :: (displaySegment 0xffff ++ ':' :: displayIpv4 ipv4) := by
    have hffff : displaySegment 0xffff = ['f', 'f', 'f', 'f'] := by decide
    rw [hffff]
    rfl
  have hgap : ∀ s, Str.stripPrefix "::".toList (':' :: ':' :: s) = some s :=
    Str.stripPrefix_append [':', ':']
  rw [htext, readIpv6, hfirst]
  dsimp only
  rw [if_neg (by decide), if_neg Bool.false_ne_true, hgap]
  dsimp only [Option.bind_eq_bind, Option.bind_some, List.length_nil]
  rw [hgroups, ← ofSegments_mapped]
  rfl

theorem readIpv6_gap {head tail : List (BitVec 16)} (hfits : head.length + tail.length + 2 ≤ 8) :
    readIpv6 (displaySegments head ++ "::".toList ++ displaySegments tail) =
      some (Ipv6Addr.ofSegments
        (head ++ List.replicate (8 - head.length - tail.length) 0 ++ tail), []) := by
  have hhead : readGroups 0 8 (displaySegments head ++ "::".toList ++ displaySegments tail) =
      (head, false, "::".toList ++ displaySegments tail) := by
    rw [List.append_assoc]
    exact readGroups_displaySegments head (by omega) (.inr ⟨_, rfl⟩)
  have htail : readGroups 0 (8 - (head.length + 1)) (displaySegments tail) = (tail, false, []) := by
    have hfew : tail.length ≤ 8 - (head.length + 1) := by omega
    have hread := readGroups_displaySegments tail hfew (.inl rfl)
    rwa [List.append_nil] at hread
  rw [readIpv6, hhead]
  dsimp only
  rw [if_neg (by omega), if_neg Bool.false_ne_true, Str.stripPrefix_append]
  dsimp only [Option.bind_eq_bind, Option.bind_some]
  rw [htail]
  rfl

theorem readIpv6_display (ip : Ipv6Addr) : readIpv6 (displayIpv6 ip) = some (ip, []) := by
  rw [displayIpv6]
  cases hmapped : ip.toIpv4Mapped with
  | some ipv4 =>
    rw [Ipv6Addr.toIpv4Mapped_eq_some.mp hmapped]
    exact readIpv6_mapped ipv4
  | none =>
    have hzero := zeroLoop_segments ip.segments
    have height : ip.segments.length = 8 := rfl
    dsimp only
    split
    · next hlong =>
      -- a run of zeros is left out, and the reader fills the gap up to eight
      obtain ⟨hle, hsplit⟩ := hzero.split (by omega)
      rw [height] at hle
      have hcount : 8 - (ip.segments.take (zeroLoop 0 ⟨0, 0⟩ ⟨0, 0⟩ ip.segments).start).length
          - (ip.segments.drop ((zeroLoop 0 ⟨0, 0⟩ ⟨0, 0⟩ ip.segments).start
            + (zeroLoop 0 ⟨0, 0⟩ ⟨0, 0⟩ ip.segments).len)).length
          = (zeroLoop 0 ⟨0, 0⟩ ⟨0, 0⟩ ip.segments).len := by
        rw [List.length_take, List.length_drop, height]
        omega
      rw [readIpv6_gap (by rw [List.length_take, List.length_drop, height]; omega), hcount, hsplit,
        Ipv6Addr.ofSegments_segments]
    · have hread := readGroups_displaySegments ip.segments (Nat.le_of_eq height) (.inl rfl)
      rw [List.append_nil] at hread
      rw [readIpv6, hread]
      dsimp only
      rw [if_pos height, Ipv6Addr.ofSegments_segments]

/-- The text of an IPv6 address does not begin with an IPv4 address. -/
theorem readIpv4_displayIpv6 (ip : Ipv6Addr) : readIpv4 (displayIpv6 ip) = none := by
  have hsegments : ∀ (segments : List (BitVec 16)) {rest : Text}, AtGap rest →
      readIpv4 (displaySegments segments ++ rest) = none := by
    intro segments rest hrest
    cases segments with
    | nil => exact readIpv4_atColon hrest.atColon
    | cons segment segments =>
      rw [displaySegments, List.append_assoc]
      exact readIpv4_segment _ (atColon_displayTail segments hrest)
  rw [displayIpv6]
  split
  · exact readIpv4_atColon fun c hc => (Option.some.inj hc).symm
  · dsimp only
    split
    · rw [List.append_assoc]
      exact hsegments _ (.inr ⟨_, rfl⟩)
    · rw [← List.append_nil (displaySegments ip.segments)]
      exact hsegments _ (.inl rfl)

/-- **An address that is printed is parsed back.** -/
theorem parse_display (ip : IpAddr) : std.parse (std.display ip) = some ip := by
  show parseIp (displayIp ip) = some ip
  cases ip with
  | v4 ip =>
    have hread := readIpv4_display ip ends_nil
    rw [List.append_nil] at hread
    rw [parseIp, displayIp, readIp, hread]
  | v6 ip => rw [parseIp, displayIp, readIp, readIpv4_displayIpv6, readIpv6_display]; rfl

/-- A character of an address. -/
def IsAddrChar (c : Char) : Prop := (Digits.toDigit 16 c).isSome ∨ c = ':' ∨ c = '.'

theorem addrChar_displayIpv4 (ip : Ipv4Addr) : ∀ c ∈ displayIpv4 ip, IsAddrChar c := by
  have hall : ∀ n, ∀ c ∈ Nat.toDigits 10 n, IsAddrChar c := by
    intro n c hc
    have hten := Digits.isSome_of_mem_toDigits (show 1 < 10 by decide) (by decide) hc
    obtain ⟨m, hm⟩ := Option.isSome_iff_exists.mp hten
    rw [Digits.toDigit, Option.filter_eq_some_iff] at hm
    refine .inl (Option.isSome_iff_exists.mpr ⟨m, ?_⟩)
    rw [Digits.toDigit, Option.filter_eq_some_iff]
    refine ⟨hm.1, decide_eq_true ?_⟩
    have hlt := of_decide_eq_true hm.2
    omega
  intro c hc
  simp only [displayIpv4, displayOctet, List.mem_append, List.mem_cons] at hc
  rcases hc with ((hc | rfl | hc) | rfl | hc) | rfl | hc
  · exact hall _ c hc
  · exact .inr (.inr rfl)
  · exact hall _ c hc
  · exact .inr (.inr rfl)
  · exact hall _ c hc
  · exact .inr (.inr rfl)
  · exact hall _ c hc

theorem addrChar_displaySegments (segments : List (BitVec 16)) :
    ∀ c ∈ displaySegments segments, IsAddrChar c := by
  have hall : ∀ segment, ∀ c ∈ displaySegment segment, IsAddrChar c := by
    intro segment c hc
    exact .inl (Digits.isSome_of_mem_toDigits (by decide) (by decide) hc)
  intro c hc
  cases segments with
  | nil => cases hc
  | cons first tail =>
    rcases List.mem_append.mp hc with hfirst | htail
    · exact hall first c hfirst
    · obtain ⟨segment, -, hc⟩ := List.mem_flatMap.mp htail
      rcases List.mem_cons.mp hc with rfl | hc
      · exact .inr (.inl rfl)
      · exact hall segment c hc

/-- The text of an IPv6 address is made of hexadecimal digits, colons and dots. -/
theorem addrChar_displayIpv6 (ip : Ipv6Addr) : ∀ c ∈ displayIpv6 ip, IsAddrChar c := by
  have hprefix : ∀ c ∈ "::ffff:".toList, IsAddrChar c := by
    intro c hc
    have hchar : c = ':' ∨ c = 'f' ∨ c = ':' := by simpa using hc
    rcases hchar with rfl | rfl | rfl
    · exact .inr (.inl rfl)
    · exact .inl rfl
    · exact .inr (.inl rfl)
  intro c hc
  rw [displayIpv6] at hc
  split at hc
  · rcases List.mem_append.mp hc with hc | hc
    · exact hprefix c hc
    · exact addrChar_displayIpv4 _ c hc
  · dsimp only at hc
    split at hc
    · rcases List.mem_append.mp hc with hc | hc
      · rcases List.mem_append.mp hc with hc | hc
        · exact addrChar_displaySegments _ c hc
        · exact hprefix c (List.mem_append_left ['f', 'f', 'f', 'f', ':'] hc)
      · exact addrChar_displaySegments _ c hc
    · exact addrChar_displaySegments _ c hc

theorem displayIpv6_ne_nil (ip : Ipv6Addr) : displayIpv6 ip ≠ [] := by
  intro hnil
  have hparse : parseIp (displayIpv6 ip) = some (.v6 ip) := parse_display (.v6 ip)
  rw [hnil] at hparse
  cases hparse

end IpText

end EchProxy
