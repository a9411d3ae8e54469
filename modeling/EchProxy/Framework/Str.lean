import Mathlib.Algebra.Group.Nat.Defs
import Mathlib.Data.Bool.AllAny
import Mathlib.Data.List.Basic
import Mathlib.Data.List.DropRight
import Mathlib.Data.List.Infix
import Mathlib.Tactic.Common

/-! # String Functions

    The string functions of the Rust standard library the proxy calls, on
    lists of characters.  Predicates are parameters where the library takes a
    pattern; Unicode white space is the library's `char::is_whitespace`.
-/

namespace Str

/-! ## Character classes -/

/-- `char::is_whitespace`: the Unicode `White_Space` property. -/
def isWhitespace (c : Char) : Bool :=
  (0x09 ≤ c.toNat && c.toNat ≤ 0x0d)
    || c.toNat == 0x20 || c.toNat == 0x85 || c.toNat == 0xa0 || c.toNat == 0x1680
    || (0x2000 ≤ c.toNat && c.toNat ≤ 0x200a)
    || c.toNat == 0x2028 || c.toNat == 0x2029 || c.toNat == 0x202f
    || c.toNat == 0x205f || c.toNat == 0x3000

/-- `char::is_ascii_digit`. -/
def isAsciiDigit (c : Char) : Bool :=
  0x30 ≤ c.toNat && c.toNat ≤ 0x39

/-- `char::to_ascii_lowercase`. -/
def toAsciiLower (c : Char) : Char :=
  if 0x41 ≤ c.toNat && c.toNat ≤ 0x5a then Char.ofNat (c.toNat + 0x20) else c

/-! ## Whole strings -/

/-- `str::trim`. -/
def trim (s : List Char) : List Char :=
  (s.dropWhile isWhitespace).rdropWhile isWhitespace

/-- `str::strip_prefix` with a string pattern. -/
def stripPrefix (pat s : List Char) : Option (List Char) :=
  if pat <+: s then some (s.drop pat.length) else none

/-- `str::strip_suffix` with a string pattern. -/
def stripSuffix (pat s : List Char) : Option (List Char) :=
  if pat <:+ s then some (s.take (s.length - pat.length)) else none

/-- `str::trim_end_matches` with a character. -/
def trimEndMatches (c : Char) (s : List Char) : List Char :=
  s.rdropWhile (· == c)

/-- `str::eq_ignore_ascii_case`. -/
def eqIgnoreAsciiCase (s t : List Char) : Bool :=
  s.map toAsciiLower == t.map toAsciiLower

/-- `str::starts_with` with a string pattern. -/
def startsWith (pat s : List Char) : Bool :=
  pat.isPrefixOf s

/-! ## Pieces -/

/-- `str::split_inclusive` with a character. -/
def splitInclusive (c : Char) : List Char → List (List Char)
  | [] => []
  | x :: xs =>
    if x = c then [x] :: splitInclusive c xs
    else
      match splitInclusive c xs with
      | [] => [[x]]
      | piece :: pieces => (x :: piece) :: pieces

/-- A line without its line end: a line feed, or a carriage return and a line
    feed. -/
def stripLineEnd (line : List Char) : List Char :=
  match stripSuffix ['\n'] line with
  | none => line
  | some body => (stripSuffix ['\r'] body).getD body

/-- `str::lines`. -/
def lines (s : List Char) : List (List Char) :=
  (splitInclusive '\n' s).map stripLineEnd

/-- `str::split` with a character. -/
def split (c : Char) (s : List Char) : List (List Char) :=
  s.splitOn c

/-- `str::split_whitespace`. -/
def splitWhitespace (s : List Char) : List (List Char) :=
  (s.splitOnP isWhitespace).filter fun piece => !piece.isEmpty

/-! ## Cutting in two -/

/-- `str::split_once` with a string pattern. -/
def splitOnce (pat : List Char) : List Char → Option (List Char × List Char)
  | [] => if pat = [] then some ([], []) else none
  | x :: xs =>
    match stripPrefix pat (x :: xs) with
    | some rest => some ([], rest)
    | none => (splitOnce pat xs).map fun parts => (x :: parts.1, parts.2)

/-- `str::rsplit_once` with a character. -/
def rsplitOnce (c : Char) (s : List Char) : Option (List Char × List Char) :=
  (splitOnce [c] s.reverse).map fun parts => (parts.2.reverse, parts.1.reverse)

/-- `str::find` with a character. -/
def find (c : Char) (s : List Char) : Option Nat :=
  s.findIdx? (· == c)

/-- The value of decimal digits. -/
def decimal (digits : List Char) : Nat :=
  digits.foldl (fun n c => 10 * n + (c.toNat - 0x30)) 0

/-- The number `str::parse` finds for an unsigned integer: a sign `+` is allowed. -/
def parseUnsigned (max : Nat) (s : List Char) : Option Nat :=
  let digits := (stripPrefix ['+'] s).getD s
  if digits ≠ [] ∧ digits.all isAsciiDigit ∧ decimal digits ≤ max then some (decimal digits)
  else none

/-- `ParseIntError`, for an unsigned integer. -/
inductive ParseIntError where
  | empty
  | invalidDigit
  | posOverflow
  deriving DecidableEq

def ParseIntError.message : ParseIntError → String
  | .empty => "cannot parse integer from empty string"
  | .invalidDigit => "invalid digit found in string"
  | .posOverflow => "number too large to fit in target type"

/-- The loop of `str::parse` over the digits, of which those before make `n`. -/
def parseDigits (max : Nat) : Nat → List Char → Except ParseIntError Nat
  | n, [] => .ok n
  | n, c :: rest =>
    if isAsciiDigit c then
      if 10 * n + (c.toNat - 0x30) ≤ max then parseDigits max (10 * n + (c.toNat - 0x30)) rest
      else .error .posOverflow
    else .error .invalidDigit

/-- `str::parse` for an unsigned integer, with its error. -/
def parseInt (max : Nat) (s : List Char) : Except ParseIntError Nat :=
  if s = [] then .error .empty
  else
    match stripPrefix ['+'] s with
    | some [] => .error .invalidDigit
    | some digits => parseDigits max 0 digits
    | none => parseDigits max 0 s

/-- White space has no letter case. -/
theorem toAsciiLower_of_whitespace {c : Char} (h : isWhitespace c = true) : toAsciiLower c = c := by
  unfold toAsciiLower
  split
  · next hupper =>
    simp only [isWhitespace, Bool.or_eq_true, Bool.and_eq_true, decide_eq_true_eq, beq_iff_eq] at h
    simp only [Bool.and_eq_true, decide_eq_true_eq] at hupper
    omega
  · rfl

/-- Texts that are equal but for their letter case have the same characters in lower
    case. -/
theorem exists_of_eqIgnoreAsciiCase {s t : List Char} (h : eqIgnoreAsciiCase s t = true)
    {c : Char} (hc : c ∈ s) : ∃ d ∈ t, toAsciiLower d = toAsciiLower c := by
  have hlower : s.map toAsciiLower = t.map toAsciiLower := beq_iff_eq.mp h
  have hmem : toAsciiLower c ∈ t.map toAsciiLower := hlower ▸ List.mem_map_of_mem hc
  exact List.mem_map.mp hmem

theorem stripPrefix_append (pat rest : List Char) : stripPrefix pat (pat ++ rest) = some rest := by
  rw [stripPrefix, if_pos (List.prefix_append pat rest), List.drop_left]

theorem stripPrefix_eq_some {pat s rest : List Char} :
    stripPrefix pat s = some rest ↔ s = pat ++ rest := by
  constructor
  · intro h
    simp only [stripPrefix, Option.ite_none_right_eq_some, Option.some.injEq] at h
    obtain ⟨⟨more, rfl⟩, rfl⟩ := h
    rw [List.drop_left]
  · rintro rfl
    exact stripPrefix_append pat rest

theorem stripPrefix_of_ne {p x : Char} (ps xs : List Char) (h : p ≠ x) :
    stripPrefix (p :: ps) (x :: xs) = none := by
  rw [stripPrefix, if_neg fun hpre => h (List.cons_prefix_cons.mp hpre).1]

theorem stripSuffix_append (s pat : List Char) : stripSuffix pat (s ++ pat) = some s := by
  rw [stripSuffix, if_pos (List.suffix_append s pat)]
  simp

theorem stripSuffix_eq_some {pat s rest : List Char} :
    stripSuffix pat s = some rest ↔ s = rest ++ pat := by
  constructor
  · intro h
    simp only [stripSuffix, Option.ite_none_right_eq_some, Option.some.injEq] at h
    obtain ⟨⟨more, rfl⟩, rfl⟩ := h
    simp
  · rintro rfl
    exact stripSuffix_append rest pat

/-- The cut is at the first place the pattern starts. -/
theorem splitOnce_append {p : Char} {s : List Char} (hs : p ∉ s) (ps rest : List Char) :
    splitOnce (p :: ps) (s ++ p :: ps ++ rest) = some (s, rest) := by
  induction s with
  | nil =>
    show splitOnce (p :: ps) (p :: (ps ++ rest)) = _
    have hstrip : stripPrefix (p :: ps) (p :: (ps ++ rest)) = some rest :=
      stripPrefix_append (p :: ps) rest
    rw [splitOnce, hstrip]
  | cons x s ih =>
    have hne : p ≠ x := fun h => hs (h ▸ List.mem_cons_self)
    rw [List.cons_append, List.cons_append, splitOnce, stripPrefix_of_ne _ _ hne]
    simp only [ih fun h => hs (List.mem_cons_of_mem _ h), Option.map_some]

/-- The cut at one character. -/
theorem splitOnce_cons {c : Char} {s : List Char} (hs : c ∉ s) (rest : List Char) :
    splitOnce [c] (s ++ c :: rest) = some (s, rest) := by
  have hcut := splitOnce_append hs [] rest
  rwa [List.append_assoc] at hcut

theorem splitOnce_eq_none {p : Char} {s : List Char} (hs : p ∉ s) (ps : List Char) :
    splitOnce (p :: ps) s = none := by
  induction s with
  | nil => rfl
  | cons x s ih =>
    have hne : p ≠ x := fun h => hs (h ▸ List.mem_cons_self)
    rw [splitOnce, stripPrefix_of_ne _ _ hne]
    simp only [ih fun h => hs (List.mem_cons_of_mem _ h), Option.map_none]

/-- What is cut is the pattern. -/
theorem splitOnce_spec {pat s a b : List Char} (h : splitOnce pat s = some (a, b)) :
    s = a ++ pat ++ b := by
  induction s generalizing a with
  | nil =>
    simp only [splitOnce, Option.ite_none_right_eq_some, Option.some.injEq, Prod.mk.injEq] at h
    obtain ⟨rfl, rfl, rfl⟩ := h
    rfl
  | cons x s ih =>
    rw [splitOnce] at h
    split at h
    · next rest hstrip =>
      simp only [Option.some.injEq, Prod.mk.injEq] at h
      obtain ⟨rfl, rfl⟩ := h
      exact stripPrefix_eq_some.mp hstrip
    · simp only [Option.map_eq_some_iff, Prod.mk.injEq] at h
      obtain ⟨⟨a', b'⟩, hrest, rfl, rfl⟩ := h
      rw [ih hrest]
      rfl

/-- A character does not come before where it is cut. -/
theorem splitOnce_char {c : Char} {s a b : List Char} (h : splitOnce [c] s = some (a, b)) :
    s = a ++ c :: b ∧ c ∉ a := by
  refine ⟨by simpa using splitOnce_spec h, ?_⟩
  induction s generalizing a with
  | nil => cases h
  | cons x s ih =>
    rw [splitOnce] at h
    split at h
    · simp only [Option.some.injEq, Prod.mk.injEq] at h
      obtain ⟨rfl, -⟩ := h
      exact List.not_mem_nil
    · next hstrip =>
      simp only [Option.map_eq_some_iff, Prod.mk.injEq] at h
      obtain ⟨⟨a', b'⟩, hrest, rfl, rfl⟩ := h
      intro hmem
      rcases List.mem_cons.mp hmem with rfl | hmem
      · have hsome : stripPrefix [c] (c :: s) = some s := stripPrefix_append [c] s
        rw [hsome] at hstrip
        cases hstrip
      · exact ih hrest hmem

theorem rsplitOnce_append {c : Char} {b : List Char} (hb : c ∉ b) (a : List Char) :
    rsplitOnce c (a ++ c :: b) = some (a, b) := by
  have h := splitOnce_append (p := c) (s := b.reverse) (by simpa using hb) [] a.reverse
  rw [rsplitOnce, List.reverse_append, List.reverse_cons, h]
  simp

theorem rsplitOnce_eq_none {c : Char} {s : List Char} (hs : c ∉ s) : rsplitOnce c s = none := by
  rw [rsplitOnce, splitOnce_eq_none (by simpa using hs)]
  rfl

theorem rsplitOnce_spec {c : Char} {s a b : List Char} (h : rsplitOnce c s = some (a, b)) :
    s = a ++ c :: b := by
  simp only [rsplitOnce, Option.map_eq_some_iff, Prod.mk.injEq] at h
  obtain ⟨⟨x, y⟩, hsplit, rfl, rfl⟩ := h
  have hs := congrArg List.reverse (splitOnce_char hsplit).1
  simpa using hs

theorem find_append {c : Char} {a : List Char} (ha : c ∉ a) (b : List Char) :
    find c (a ++ c :: b) = some a.length := by
  rw [find, List.findIdx?_eq_some_iff_getElem]
  refine ⟨by simp, by simp, fun j hj => ?_⟩
  rw [List.getElem_append_left hj, Bool.not_eq_true, beq_eq_false_iff_ne]
  exact fun h => ha (h ▸ List.getElem_mem hj)

theorem find_spec {c : Char} {s : List Char} {idx : Nat} (h : find c s = some idx) :
    ∃ a b, s = a ++ c :: b ∧ a.length = idx := by
  rw [find, List.findIdx?_eq_some_iff_getElem] at h
  obtain ⟨hlt, hat, -⟩ := h
  refine ⟨s.take idx, s.drop (idx + 1), ?_, List.length_take_of_le (Nat.le_of_lt hlt)⟩
  rw [← eq_of_beq hat, ← List.drop_eq_getElem_cons hlt, List.take_append_drop]

theorem find_eq_none {c : Char} {s : List Char} (hs : c ∉ s) : find c s = none := by
  rw [find, List.findIdx?_eq_none_iff]
  exact fun x hx => beq_eq_false_iff_ne.mpr fun h => hs (h ▸ hx)

/-! ## Numbers -/

/-- One ASCII digit or more. -/
def IsDigits (s : List Char) : Prop := s ≠ [] ∧ ∀ c ∈ s, isAsciiDigit c = true

theorem IsDigits.not_mem {s : List Char} (h : IsDigits s) {c : Char} (hc : isAsciiDigit c = false) :
    c ∉ s := by
  intro hmem
  rw [h.2 c hmem] at hc
  cases hc

/-- Digits are a number, with a sign in front of them or without. -/
theorem parseUnsigned_eq_some {max n : Nat} {s : List Char} :
    parseUnsigned max s = some n ↔
      ∃ digits, (s = digits ∨ s = '+' :: digits) ∧ IsDigits digits ∧ decimal digits = n ∧
        n ≤ max := by
  have hread : parseUnsigned max s = some n ↔
      IsDigits ((stripPrefix ['+'] s).getD s) ∧ decimal ((stripPrefix ['+'] s).getD s) = n ∧
        n ≤ max := by
    simp only [parseUnsigned, Option.ite_none_right_eq_some, Option.some.injEq, List.all_eq_true,
      IsDigits]
    constructor
    · rintro ⟨⟨hne, hdigits, hmax⟩, rfl⟩
      exact ⟨⟨hne, hdigits⟩, rfl, hmax⟩
    · rintro ⟨⟨hne, hdigits⟩, rfl, hmax⟩
      exact ⟨⟨hne, hdigits, hmax⟩, rfl⟩
  rw [hread]
  constructor
  · intro ⟨hdigits, hvalue, hmax⟩
    cases hsign : stripPrefix ['+'] s with
    | none =>
      rw [hsign, Option.getD_none] at hdigits hvalue
      exact ⟨s, .inl rfl, hdigits, hvalue, hmax⟩
    | some digits =>
      rw [hsign, Option.getD_some] at hdigits hvalue
      exact ⟨digits, .inr (stripPrefix_eq_some.mp hsign), hdigits, hvalue, hmax⟩
  · rintro ⟨digits, rfl | rfl, hdigits, hvalue, hmax⟩
    · -- a sign is no digit
      have hsign : stripPrefix ['+'] s = none := by
        cases hstrip : stripPrefix ['+'] s with
        | none => rfl
        | some rest =>
          rw [stripPrefix_eq_some.mp hstrip] at hdigits
          exact absurd List.mem_cons_self (hdigits.not_mem (by decide))
      rw [hsign, Option.getD_none]
      exact ⟨hdigits, hvalue, hmax⟩
    · have hsign : stripPrefix ['+'] ('+' :: digits) = some digits := stripPrefix_append ['+'] digits
      rw [hsign, Option.getD_some]
      exact ⟨hdigits, hvalue, hmax⟩

theorem le_foldl_decimal (n : Nat) (s : List Char) :
    n ≤ s.foldl (fun n c => 10 * n + (c.toNat - 0x30)) n := by
  induction s generalizing n with
  | nil => exact le_refl n
  | cons c s ih =>
    have hstep := ih (10 * n + (c.toNat - 0x30))
    rw [List.foldl_cons]
    omega

/-- The loop ends well on digits whose value fits, and only there. -/
theorem parseDigits_eq_ok {max n m : Nat} {s : List Char} (hn : n ≤ max) :
    parseDigits max n s = .ok m ↔ (∀ c ∈ s, isAsciiDigit c = true) ∧
      s.foldl (fun n c => 10 * n + (c.toNat - 0x30)) n = m ∧ m ≤ max := by
  induction s generalizing n with
  | nil =>
    rw [parseDigits, Except.ok.injEq]
    constructor
    · rintro rfl
      exact ⟨fun _ hc => (by cases hc), rfl, hn⟩
    · exact fun h => h.2.1
  | cons c s ih =>
    rw [parseDigits, List.foldl_cons, List.forall_mem_cons]
    by_cases hdigit : isAsciiDigit c = true
    · rw [if_pos hdigit]
      by_cases hfits : 10 * n + (c.toNat - 0x30) ≤ max
      · rw [if_pos hfits, ih hfits]
        simp only [hdigit, true_and]
      · -- what is too large already only grows
        rw [if_neg hfits]
        refine ⟨fun h => (by cases h), ?_⟩
        rintro ⟨-, rfl, hmax⟩
        exact absurd (le_trans (le_foldl_decimal _ s) hmax) hfits
    · rw [if_neg hdigit]
      exact ⟨fun h => (by cases h), fun h => absurd h.1.1 hdigit⟩

/-- With its error or without, `str::parse` finds the same number. -/
theorem parseInt_eq_ok {max n : Nat} {s : List Char} :
    parseInt max s = .ok n ↔ parseUnsigned max s = some n := by
  have hdigits : ∀ digits : List Char, digits ≠ [] → (parseDigits max 0 digits = .ok n ↔
      (if digits ≠ [] ∧ digits.all isAsciiDigit ∧ decimal digits ≤ max then some (decimal digits)
        else none) = some n) := by
    intro digits hne
    rw [parseDigits_eq_ok (Nat.zero_le max), Option.ite_none_right_eq_some, Option.some.injEq,
      List.all_eq_true]
    constructor
    · rintro ⟨hall, rfl, hmax⟩
      exact ⟨⟨hne, hall, hmax⟩, rfl⟩
    · rintro ⟨⟨-, hall, hmax⟩, rfl⟩
      exact ⟨hall, rfl, hmax⟩
  unfold parseInt parseUnsigned
  split
  · next hempty =>
    subst hempty
    exact ⟨fun h => (by cases h), fun h => (by cases h)⟩
  · next hne =>
    split
    · next hsign =>
      rw [hsign]
      exact ⟨fun h => (by cases h), fun h => (by cases h)⟩
    · next digits hrest hsign =>
      rw [hsign]
      exact hdigits digits fun hnil => hrest hnil
    · next hsign =>
      rw [hsign]
      exact hdigits s hne

/-- The first thing that is wrong counts. -/
example : parseInt 65535 "655360x".toList = .error .posOverflow ∧
    parseInt 65535 "6553x0".toList = .error .invalidDigit := by
  decide

theorem decimal_append_singleton (digits : List Char) (c : Char) :
    decimal (digits ++ [c]) = 10 * decimal digits + (c.toNat - 0x30) := by
  rw [decimal, List.foldl_append]
  rfl

/-- **A number is read back from its digits.** -/
theorem decimal_toDigits (n : Nat) :
    IsDigits (Nat.toDigits 10 n) ∧ decimal (Nat.toDigits 10 n) = n := by
  have hdigit : ∀ m < 10, isAsciiDigit m.digitChar = true ∧ m.digitChar.toNat - 0x30 = m := by
    decide
  -- the last digit is written behind the digits of the tenth part
  induction n using Nat.strongRecOn with
  | ind n ih =>
    by_cases hsmall : n < 10
    · obtain ⟨hchar, hvalue⟩ := hdigit n hsmall
      rw [Nat.toDigits_of_lt_base hsmall]
      refine ⟨⟨List.cons_ne_nil _ _, ?_⟩, ?_⟩
      · intro c hc
        rw [List.mem_singleton.mp hc]
        exact hchar
      · rw [decimal, List.foldl_cons, List.foldl_nil, hvalue]
        omega
    · obtain ⟨hchar, hvalue⟩ := hdigit (n % 10) (Nat.mod_lt n (by omega))
      obtain ⟨⟨hne, hdigits⟩, hdecimal⟩ := ih (n / 10) (by omega)
      rw [Nat.toDigits_of_base_le (by omega) (by omega)]
      refine ⟨⟨by simp, ?_⟩, ?_⟩
      · intro c hc
        rcases List.mem_append.mp hc with hmem | hlast
        · exact hdigits c hmem
        · rw [List.mem_singleton.mp hlast]
          exact hchar
      · rw [decimal_append_singleton, hdecimal, hvalue]
        omega

/-- A number has no more digits than it was written with. -/
theorem length_toDigits_decimal_le {s : List Char} (h : IsDigits s) :
    (Nat.toDigits 10 (decimal s)).length ≤ s.length := by
  have hbound : decimal s < 10 ^ s.length := by
    obtain ⟨-, hall⟩ := h
    induction s using List.reverseRecOn with
    | nil => decide
    | append_singleton s c ih =>
      have hrest := ih fun d hd => hall d (List.mem_append_left _ hd)
      have hdigit := hall c (List.mem_append_right _ List.mem_cons_self)
      have hlast : c.toNat - 0x30 < 10 := by
        rw [isAsciiDigit, Bool.and_eq_true, decide_eq_true_eq, decide_eq_true_eq] at hdigit
        omega
      rw [decimal_append_singleton, List.length_append, List.length_singleton, pow_succ]
      omega
  exact (Nat.length_toDigits_le_iff (by omega) (List.length_pos_iff.mpr h.1)).mpr hbound

/-! ## White space at the ends -/

theorem trim_infix (s : List Char) : trim s <:+: s :=
  (List.rdropWhile_prefix _ _).isInfix.trans (List.dropWhile_suffix _).isInfix

/-- Nothing is left to trim. -/
theorem trim_trim (s : List Char) : trim (trim s) = trim s := by
  have hstart : (trim s).dropWhile isWhitespace = trim s := by
    rw [List.dropWhile_eq_self_iff]
    intro hpos
    have hpre : trim s <+: s.dropWhile isWhitespace := List.rdropWhile_prefix _ _
    have hlen : 0 < (s.dropWhile isWhitespace).length := Nat.lt_of_lt_of_le hpos hpre.length_le
    rw [hpre.getElem hpos]
    exact List.dropWhile_get_zero_not _ _ hlen
  rw [trim, hstart]
  exact List.rdropWhile_idempotent _ _

theorem trim_cons_of_whitespace {c : Char} (hc : isWhitespace c = true) (s : List Char) :
    trim (c :: s) = trim s := by
  rw [trim, List.dropWhile_cons_of_pos hc, trim]

theorem trim_concat_of_whitespace {c : Char} (hc : isWhitespace c = true) (s : List Char) :
    trim (s ++ [c]) = trim s := by
  rw [trim, trim, List.dropWhile_append]
  split
  · next hnone =>
    rw [List.dropWhile_cons_of_pos hc, List.dropWhile_nil, List.isEmpty_iff.mp hnone]
  · exact List.rdropWhile_concat_pos _ _ _ hc

/-- White space around a text does not matter. -/
theorem trim_padded {a b : List Char} (ha : ∀ c ∈ a, isWhitespace c = true)
    (hb : ∀ c ∈ b, isWhitespace c = true) (s : List Char) : trim (a ++ s ++ b) = trim s := by
  induction a with
  | nil =>
    rw [List.nil_append]
    induction b using List.reverseRecOn with
    | nil => rw [List.append_nil]
    | append_singleton b c ih =>
      rw [← List.append_assoc, trim_concat_of_whitespace (hb c (by simp))]
      exact ih fun d hd => hb d (List.mem_append_left _ hd)
  | cons c a ih =>
    rw [List.cons_append, List.cons_append, trim_cons_of_whitespace (ha c List.mem_cons_self)]
    exact ih fun d hd => ha d (List.mem_cons_of_mem _ hd)

/-- A text without white space at its ends is left alone. -/
theorem trim_of_ends {s : List Char} (hfirst : ∀ c ∈ s.head?, isWhitespace c = false)
    (hlast : ∀ c ∈ s.getLast?, isWhitespace c = false) : trim s = s := by
  have hdrop : s.dropWhile isWhitespace = s := by
    cases s with
    | nil => rfl
    | cons x s => simp [hfirst x rfl]
  rw [trim, hdrop, List.rdropWhile_eq_self_iff]
  intro hne
  simp [hlast _ (List.getLast?_eq_some_getLast hne)]

theorem trim_eq_self {s : List Char} (hs : ∀ c ∈ s, isWhitespace c = false) : trim s = s :=
  trim_of_ends (fun c hc => hs c (List.mem_of_mem_head? hc))
    fun c hc => hs c (List.mem_of_mem_getLast? hc)

/-- What is cut at white space has none. -/
theorem not_whitespace_of_mem_splitOnP {s piece : List Char} (h : piece ∈ s.splitOnP isWhitespace) :
    ∀ c ∈ piece, isWhitespace c = false := by
  induction s generalizing piece with
  | nil =>
    rw [List.splitOnP_nil, List.mem_singleton] at h
    simp [h]
  | cons x s ih =>
    rw [List.splitOnP_cons_eq_if_modifyHead] at h
    cases hx : isWhitespace x with
    | true =>
      rw [hx, if_pos rfl] at h
      rcases List.mem_cons.mp h with rfl | hmem
      · simp
      · exact ih hmem
    | false =>
      rw [hx, if_neg Bool.false_ne_true] at h
      cases hsplit : s.splitOnP isWhitespace with
      | nil => exact absurd hsplit (List.splitOnP_ne_nil _ _)
      | cons first pieces =>
        rw [hsplit] at h ih
        rcases List.mem_cons.mp h with rfl | hmem
        · exact List.forall_mem_cons.mpr ⟨hx, ih List.mem_cons_self⟩
        · exact ih (List.mem_cons_of_mem _ hmem)

/-- The words of a text are not empty and have no white space. -/
theorem mem_splitWhitespace {s word : List Char} (h : word ∈ splitWhitespace s) :
    word ≠ [] ∧ ∀ c ∈ word, isWhitespace c = false := by
  obtain ⟨hmem, hne⟩ := List.mem_filter.mp h
  refine ⟨fun hnil => ?_, not_whitespace_of_mem_splitOnP hmem⟩
  rw [hnil] at hne
  cases hne

/-- Words with one space in between. -/
theorem splitWhitespace_words {a b c : List Char} (ha : a ≠ []) (hb : b ≠ []) (hc : c ≠ [])
    (hwords : ∀ x ∈ a ++ b ++ c, isWhitespace x = false) :
    splitWhitespace (a ++ ' ' :: b ++ ' ' :: c) = [a, b, c] := by
  have hspace : isWhitespace ' ' = true := by decide
  have hsplit : (a ++ ' ' :: b ++ ' ' :: c).splitOnP isWhitespace = [a, b, c] := by
    rw [List.append_assoc, List.cons_append,
      List.splitOnP_append_cons_of_forall_mem (fun x hx => hwords x (by simp [hx])) _ hspace,
      List.splitOnP_append_cons_of_forall_mem (fun x hx => hwords x (by simp [hx])) _ hspace,
      List.splitOnP_eq_singleton fun x hx => hwords x (by simp [hx])]
  rw [splitWhitespace, hsplit]
  simp [ha, hb, hc]

end Str
