import EchProxy.Http.Rewrite

/-! # Requests as Clients Write Them

    A well-formed request in absolute form, by its parts.  The parts carry
    their syntax, and what a URI names is read off its parts, not off its text.
    The proxy reads the text; where it reads what is written, and where it does
    not, is the last part of this module.

    The character classes are those of the URI and HTTP grammars, but for the
    two digits behind a percent sign.
-/

namespace EchProxy

namespace Http

open Checked

/-! ## Characters -/

/-- The characters of a method or a field name. -/
def isTokenChar (c : Char) : Bool := c.isAlphanum || "!#$%&'*+-.^_`|~".toList.contains c

def isSchemeChar (c : Char) : Bool := c.isAlphanum || "+-.".toList.contains c

/-- The characters of a registered name: unreserved ones, escapes and
    sub-delimiters. -/
def isNameChar (c : Char) : Bool := c.isAlphanum || "-._~%!$&'()*+,;=".toList.contains c

/-- The characters of an address in brackets. -/
def isLiteralChar (c : Char) : Bool := isNameChar c || c == ':'

def isPathChar (c : Char) : Bool := isLiteralChar c || c == '@' || c == '/'

def isQueryChar (c : Char) : Bool := isPathChar c || c == '?'

/-- All of them are visible. -/
def IsVisible (c : Char) : Prop := 0x21 ≤ c.toNat ∧ c.toNat ≤ 0x7e

theorem isVisible_of_isAlphanum {c : Char} (h : c.isAlphanum = true) : IsVisible c := by
  have hranges : (decide (c.val ≥ 65 ∧ c.val ≤ 90) || (c.val ≥ 97 && c.val ≤ 122) ||
      (c.val ≥ 48 && c.val ≤ 57)) = true := h
  simp only [ge_iff_le, Bool.or_eq_true, Bool.and_eq_true, decide_eq_true_eq,
    UInt32.le_iff_toNat_le] at hranges
  have htoNat : c.toNat = c.val.toNat := rfl
  rw [IsVisible, htoNat]
  simp at hranges
  omega

/-- A class of letters, digits and the characters of `others`. -/
theorem isVisible_of_class {c : Char} {others : List Char} (hothers : ∀ d ∈ others, IsVisible d)
    (h : (c.isAlphanum || others.contains c) = true) : IsVisible c := by
  rcases Bool.or_eq_true_iff.mp h with halnum | hmem
  · exact isVisible_of_isAlphanum halnum
  · exact hothers c (List.contains_iff_mem.mp hmem)

instance (c : Char) : Decidable (IsVisible c) := inferInstanceAs (Decidable (_ ∧ _))

theorem isVisible_of_isTokenChar {c : Char} (h : isTokenChar c = true) : IsVisible c :=
  isVisible_of_class (List.all_iff_forall_prop.mp rfl) h

theorem isVisible_of_isSchemeChar {c : Char} (h : isSchemeChar c = true) : IsVisible c :=
  isVisible_of_class (List.all_iff_forall_prop.mp rfl) h

theorem isVisible_of_isQueryChar {c : Char} (h : isQueryChar c = true) : IsVisible c := by
  simp only [isQueryChar, isPathChar, isLiteralChar, Bool.or_eq_true, beq_iff_eq] at h
  rcases h with (((hname | rfl) | rfl) | rfl) | rfl
  · exact isVisible_of_class (List.all_iff_forall_prop.mp rfl) hname
  all_goals decide

/-- So none of them is white space. -/
theorem noWhitespace_of_isVisible {c : Char} (h : IsVisible c) : Str.isWhitespace c = false := by
  obtain ⟨hlow, hhigh⟩ := h
  simp only [Str.isWhitespace, Bool.or_eq_false_iff, Bool.and_eq_false_iff,
    decide_eq_false_iff_not, beq_eq_false_iff_ne]
  omega

/-! ## URIs -/

/-- The host of a URI. -/
inductive WireHost where
  /-- A name, or an IPv4 address. -/
  | name (text : Text) (nonempty : text ≠ []) (spelled : ∀ c ∈ text, isNameChar c = true)
  /-- An address in brackets. -/
  | literal (text : Text) (spelled : ∀ c ∈ text, isLiteralChar c = true)

namespace WireHost

/-- As it stands in the URI. -/
def text : WireHost → Text
  | name text _ _ => text
  | literal text _ => '[' :: text ++ [']']

/-- The host that is meant. -/
def named : WireHost → Text
  | name text _ _ => text
  | literal text _ => text

def isLiteral : WireHost → Bool
  | name _ _ _ => false
  | literal _ _ => true

end WireHost

/-- A URI with an authority, and without user information. -/
structure WireUri where
  scheme : Text
  host : WireHost
  /-- The digits behind the colon, which may be none. -/
  port : Option Text
  path : Text
  query : Option Text
  scheme_spelled : ∀ c ∈ scheme, isSchemeChar c = true
  port_spelled : ∀ digits ∈ port, ∀ c ∈ digits, Str.isAsciiDigit c = true
  path_spelled : ∀ c ∈ path, isPathChar c = true
  path_absolute : path = [] ∨ path.head? = some '/'
  query_spelled : ∀ q ∈ query, ∀ c ∈ q, isQueryChar c = true

namespace WireUri

variable (uri : WireUri)

/-- The part between the slashes and the path. -/
def authority : Text := uri.host.text ++ (uri.port.map (':' :: ·)).getD []

/-- The path and the query. -/
def tail : Text := uri.path ++ (uri.query.map ('?' :: ·)).getD []

def text : Text := uri.scheme ++ "://".toList ++ (uri.authority ++ uri.tail)

/-- The port that is meant: without digits it is that of the scheme. -/
def namedPort : Nat :=
  match uri.port with
  | some (c :: digits) => Str.decimal (c :: digits)
  | _ => if Str.eqIgnoreAsciiCase uri.scheme "https".toList then 443 else 80

/-- A literal, or a name with its port and its path written in full: no colon
    without digits, and no query without a path. -/
def InFull : Prop :=
  uri.host.isLiteral = true ∨ (uri.port ≠ some [] ∧ (uri.path ≠ [] ∨ uri.query = none))

end WireUri

/-! ## Requests -/

/-- A header field; the value has the white space around it. -/
structure WireHeader where
  name : Text
  value : Bytes
  name_nonempty : name ≠ []
  name_spelled : ∀ c ∈ name, isTokenChar c = true
  value_clean : 0x0d ∉ value ∧ 0x0a ∉ value

/-- The line of a header, without its end. -/
def WireHeader.line (header : WireHeader) : Bytes :=
  Text.asBytes header.name ++ 0x3a :: header.value

/-- A request in absolute form, without a body and with credentials.  `CONNECT` has
    another form, and the proxy reads this name in any letter case. -/
structure WireRequest where
  method : Text
  uri : WireUri
  headers : List WireHeader
  method_nonempty : method ≠ []
  method_spelled : ∀ c ∈ method, isTokenChar c = true
  method_form : Str.eqIgnoreAsciiCase method "CONNECT".toList = false
  bodyless : ∀ header ∈ headers,
    Str.eqIgnoreAsciiCase header.name "Transfer-Encoding".toList = false ∧
      (Str.eqIgnoreAsciiCase header.name "Content-Length".toList = true →
        ∃ value, Text.fromUtf8 header.value = some value ∧ Str.trim value = ['0'])
  authorized : ∃ header ∈ headers, Str.eqIgnoreAsciiCase header.name proxyAuthorization = true

namespace WireRequest

/-- The request line, without its end. -/
def requestLine (request : WireRequest) : Text :=
  request.method ++ ' ' :: request.uri.text ++ ' ' :: "HTTP/1.1".toList

/-- The lines of a request, but for the empty one at its end. -/
def lines (request : WireRequest) : List Bytes :=
  Text.asBytes request.requestLine :: request.headers.map WireHeader.line

/-- What the client sends. -/
def bytes (request : WireRequest) : Bytes := Lines.join 0x0d 0x0a (request.lines ++ [[]])

/-- The header lines that are for the proxy only. -/
def proxyLines (request : WireRequest) : List Bytes :=
  (request.headers.filter fun header => isProxyHeader header.name).map WireHeader.line

end WireRequest

/-! ## What the proxy reads -/

section reading
variable {uri : WireUri} {absolute : AbsoluteUri}

theorem not_mem_of_class {c : Char} {text : Text} {spelled : Char → Bool}
    (h : ∀ d ∈ text, spelled d = true) (hc : spelled c = false) : c ∉ text := by
  intro hmem
  rw [h c hmem] at hc
  cases hc

/-- The characters of an authority. -/
theorem authority_spelled (uri : WireUri) :
    ∀ c ∈ uri.authority, isLiteralChar c = true ∨ c = '[' ∨ c = ']' := by
  intro c hc
  rcases List.mem_append.mp hc with hhost | hport
  · cases hkind : uri.host with
    | name text nonempty spelled =>
      rw [hkind] at hhost
      exact .inl (by rw [isLiteralChar, spelled c hhost, Bool.true_or])
    | literal text spelled =>
      rw [hkind] at hhost
      simp only [WireHost.text, List.cons_append, List.mem_cons, List.mem_append, List.not_mem_nil,
        or_false] at hhost
      rcases hhost with rfl | hmem | rfl
      · exact .inr (.inl rfl)
      · exact .inl (spelled c hmem)
      · exact .inr (.inr rfl)
  · cases hkind : uri.port with
    | none =>
      rw [hkind] at hport
      cases hport
    | some digits =>
      rw [hkind] at hport
      rcases List.mem_cons.mp hport with rfl | hdigit
      · exact .inl (by decide)
      · refine .inl ?_
        have hspelled := uri.port_spelled digits hkind c hdigit
        -- a digit is one of the letters and digits of a name
        have halnum : c.isAlphanum = true := by
          simp only [Str.isAsciiDigit, Bool.and_eq_true, decide_eq_true_eq] at hspelled
          simp [Char.isAlphanum, Char.isDigit, UInt32.le_iff_toNat_le]
          right
          exact hspelled
        rw [isLiteralChar, isNameChar, halnum]
        rfl

theorem not_mem_authority {c : Char} (hc : isLiteralChar c = false ∧ c ≠ '[' ∧ c ≠ ']') :
    c ∉ uri.authority := by
  intro hmem
  rcases authority_spelled uri c hmem with hspelled | heq | heq
  · rw [hc.1] at hspelled
    cases hspelled
  · exact hc.2.1 heq
  · exact hc.2.2 heq

/-- `cutPath` cuts where the authority ends, but where there is a query and no path. -/
theorem cutPath_spec (uri : WireUri) :
    (cutPath (uri.authority ++ uri.tail)).2.head? = some '/' ∧
      ((cutPath (uri.authority ++ uri.tail)).1 = uri.authority ∧
          (uri.path ≠ [] ∨ uri.query = none) ∨
        ∃ more, (cutPath (uri.authority ++ uri.tail)).1 = uri.authority ++ '?' :: more ∧
          uri.path = [] ∧ uri.query ≠ none) := by
  have hslash : '/' ∉ uri.authority := not_mem_authority (by decide)
  rcases uri.path_absolute with hroot | hpath
  · cases hquery : uri.query with
    | none =>
      have htail : uri.tail = [] := by rw [WireUri.tail, hroot, hquery]; rfl
      rw [htail, List.append_nil, cutPath, Str.find_eq_none hslash]
      exact ⟨rfl, .inl ⟨rfl, .inr rfl⟩⟩
    | some query =>
      have htail : uri.tail = '?' :: query := by rw [WireUri.tail, hroot, hquery]; rfl
      rw [htail, cutPath]
      cases hfind : Str.find '/' (uri.authority ++ '?' :: query) with
      | none => exact ⟨rfl, .inr ⟨query, rfl, hroot, by simp⟩⟩
      | some idx =>
        obtain ⟨before, after, hat, rfl⟩ := Str.find_spec hfind
        dsimp only
        rw [hat, List.take_left, List.drop_left]
        -- the slash is one of the query
        rcases Lines.cut_cases hat with ⟨mid, hmid⟩ | ⟨-, hmark, -⟩ | ⟨mid, hbefore, -⟩
        · exact absurd (hmid ▸ by simp) hslash
        · cases hmark
        · exact ⟨rfl, .inr ⟨mid, hbefore, hroot, by simp⟩⟩
  · obtain ⟨path, hcons⟩ := List.head?_eq_some_iff.mp hpath
    have htail : uri.tail = '/' :: (path ++ (uri.query.map ('?' :: ·)).getD []) := by
      rw [WireUri.tail, hcons]
      rfl
    rw [htail, cutPath, Str.find_append hslash]
    dsimp only
    rw [List.take_left, List.drop_left]
    exact ⟨rfl, .inl ⟨rfl, .inl (by rw [hcons]; exact List.cons_ne_nil _ _)⟩⟩

/-- The authority `parse_absolute_uri` takes is the one that is written, but where
    there is a query and no path. -/
theorem cut_of_parseAbsoluteUri (h : parseAbsoluteUri uri.text = .ok absolute) :
    Str.eqIgnoreAsciiCase uri.scheme "http".toList = true ∧
    absolute.path.head? = some '/' ∧
    ∃ authority port, parseAuthority authority 80 = .ok (absolute.host, port) ∧
      absolute.port = some port ∧
      (authority = uri.authority ∧ (uri.path ≠ [] ∨ uri.query = none) ∨
        ∃ more, authority = uri.authority ++ '?' :: more ∧ uri.path = [] ∧ uri.query ≠ none) := by
  have hscheme : ':' ∉ uri.scheme := not_mem_of_class uri.scheme_spelled (by decide)
  have hsplit : Str.splitOnce "://".toList uri.text = some (uri.scheme, uri.authority ++ uri.tail) :=
    Str.splitOnce_append hscheme ['/', '/'] _
  obtain ⟨scheme, rest, host, port, hsplit', hhttp, hauthority, rfl⟩ :=
    parseAbsoluteUri_eq_ok.mp h
  rw [hsplit, Option.some.injEq] at hsplit'
  obtain ⟨rfl, rfl⟩ := Prod.mk.inj hsplit'
  obtain ⟨hpath, hform⟩ := cutPath_spec uri
  exact ⟨hhttp, hpath, _, port, hauthority, rfl, hform⟩

/-- A port is a number that fits, and a sign may stand before it. -/
theorem parseU16_eq_ok {t : Text} {port : UInt16} :
    parseU16 t = .ok port ↔
      ∃ digits, (t = digits ∨ t = '+' :: digits) ∧ Str.IsDigits digits ∧
        Str.decimal digits = port.toNat := by
  rw [parseU16_iff]
  constructor
  · rintro ⟨n, hparse, rfl⟩
    obtain ⟨digits, hform, hdigits, hvalue, hmax⟩ := Str.parseUnsigned_eq_some.mp hparse
    refine ⟨digits, hform, hdigits, ?_⟩
    rw [UInt16.toNat_ofNat', hvalue, Nat.mod_eq_of_lt (by omega)]
  · rintro ⟨digits, hform, hdigits, hvalue⟩
    have hmax : port.toNat ≤ 65535 := by
      have hlt := port.toNat_lt
      omega
    refine ⟨port.toNat, ?_, UInt16.ofNat_toNat⟩
    exact Str.parseUnsigned_eq_some.mpr ⟨digits, hform, hdigits, hvalue, hmax⟩

/-- A number that is read is one of digits, but for a sign. -/
theorem parseU16_spec {digits : Text} {port : UInt16} (h : parseU16 digits = .ok port) :
    digits ≠ [] ∧ (∀ c ∈ digits, Str.isAsciiDigit c = true ∨ c = '+') ∧
      ((∀ c ∈ digits, Str.isAsciiDigit c = true) → port.toNat = Str.decimal digits) := by
  obtain ⟨number, hform, hnumber, hvalue⟩ := parseU16_eq_ok.mp h
  rcases hform with rfl | rfl
  · exact ⟨hnumber.1, fun c hc => .inl (hnumber.2 c hc), fun _ => hvalue.symm⟩
  · refine ⟨List.cons_ne_nil _ _, fun c hc => ?_, fun hall => ?_⟩
    · rcases List.mem_cons.mp hc with rfl | hmem
      · exact .inr rfl
      · exact .inl (hnumber.2 c hmem)
    · cases hall '+' List.mem_cons_self

/-- The port that is read is the one that is meant. -/
theorem namedPort_of_parseU16 {digits : Text} {port : UInt16} (hport : uri.port = some digits)
    (h : parseU16 digits = .ok port) : port.toNat = uri.namedPort := by
  obtain ⟨hne, -, hvalue⟩ := parseU16_spec h
  rw [hvalue (uri.port_spelled digits hport), WireUri.namedPort, hport]
  cases digits with
  | nil => exact absurd rfl hne
  | cons c digits => rfl

theorem namedPort_of_none (hport : uri.port = none)
    (hscheme : Str.eqIgnoreAsciiCase uri.scheme "http".toList = true) : uri.namedPort = 80 := by
  have hlower : uri.scheme.map Str.toAsciiLower = "http".toList.map Str.toAsciiLower :=
    eq_of_beq hscheme
  rw [WireUri.namedPort, hport]
  dsimp only
  rw [Str.eqIgnoreAsciiCase, hlower]
  rfl

/-- A literal is read, with its port, unless something else stands behind it. -/
theorem parseBracketed_literal {text extra host : Text} {port : UInt16}
    (hscheme : Str.eqIgnoreAsciiCase uri.scheme "http".toList = true)
    (htext : ∀ c ∈ text, isLiteralChar c = true) (hextra : extra = [] ∨ extra.head? = some '?')
    (h : parseBracketed (text ++ ']' :: ((uri.port.map (':' :: ·)).getD [] ++ extra)) 80 =
      .ok (host, port)) :
    host = text ∧ port.toNat = uri.namedPort := by
  have hclose : ']' ∉ text := not_mem_of_class htext (by decide)
  have hsplit : Str.splitOnce [']'] (text ++ ']' :: ((uri.port.map (':' :: ·)).getD [] ++ extra)) =
      some (text, (uri.port.map (':' :: ·)).getD [] ++ extra) := by
    have hcut := Str.splitOnce_append hclose [] ((uri.port.map (':' :: ·)).getD [] ++ extra)
    simpa using hcut
  rw [parseBracketed, hsplit, context, Result.ok_bind] at h
  cases hport : uri.port with
  | none =>
    rw [hport] at h
    dsimp only [Option.map_none, Option.getD_none, List.nil_append] at h
    rcases hextra with rfl | hquery
    · rw [if_pos rfl] at h
      obtain ⟨rfl, rfl⟩ := Prod.mk.inj (Except.ok.inj h)
      exact ⟨rfl, (namedPort_of_none hport hscheme).symm⟩
    -- behind the bracket there is a colon or nothing, so a query is refused
    · obtain ⟨more, rfl⟩ := List.head?_eq_some_iff.mp hquery
      cases h
  | some digits =>
    rw [hport] at h
    dsimp only [Option.map_some, Option.getD_some, List.cons_append] at h
    have hstrip : Str.stripPrefix [':'] (':' :: (digits ++ extra)) = some (digits ++ extra) :=
      Str.stripPrefix_append [':'] _
    rw [if_neg (List.cons_ne_nil _ _), hstrip, context, Result.ok_bind, Result.bind_eq_ok] at h
    obtain ⟨number, hnumber, h⟩ := h
    obtain ⟨rfl, rfl⟩ := Prod.mk.inj (Except.ok.inj h)
    rcases hextra with rfl | hquery
    · rw [List.append_nil] at hnumber
      exact ⟨rfl, namedPort_of_parseU16 hport hnumber⟩
    · obtain ⟨more, rfl⟩ := List.head?_eq_some_iff.mp hquery
      obtain ⟨-, hspelled, -⟩ := parseU16_spec hnumber
      -- a query would be part of the number
      rcases hspelled '?' (by simp) with hdigit | hsign
      · cases hdigit
      · cases hsign

/-- What does not begin with a bracket is split at its last colon. -/
theorem splitAuthority_of_parseAuthority {text more host : Text} {port : UInt16}
    (nonempty : text ≠ []) (spelled : ∀ c ∈ text, isNameChar c = true)
    (h : parseAuthority (text ++ more) 80 = .ok (host, port)) :
    splitAuthority (text ++ more) 80 = .ok (host, port) := by
  have hstrip : Str.stripPrefix ['['] (text ++ more) = none := by
    cases text with
    | nil => exact absurd rfl nonempty
    | cons c text =>
      apply Str.stripPrefix_of_ne
      rintro rfl
      have hbracket := spelled '[' List.mem_cons_self
      cases hbracket
  rw [parseAuthority, hstrip] at h
  split at h
  · cases h
  · dsimp only at h
    rw [Result.bind_eq_ok] at h
    obtain ⟨⟨host', port'⟩, hsplit, h⟩ := h
    dsimp only at h
    split at h
    · cases h
    · rw [hsplit, ← Except.ok.inj h]

/-- A name is read, with its port. -/
theorem splitAuthority_name {text host : Text} {port : UInt16}
    (hscheme : Str.eqIgnoreAsciiCase uri.scheme "http".toList = true)
    (spelled : ∀ c ∈ text, isNameChar c = true) (hcolon : uri.port ≠ some [])
    (h : splitAuthority (text ++ (uri.port.map (':' :: ·)).getD []) 80 = .ok (host, port)) :
    host = text ∧ port.toNat = uri.namedPort := by
  have hname : ':' ∉ text := not_mem_of_class spelled (by decide)
  rw [splitAuthority] at h
  cases hport : uri.port with
  | none =>
    rw [hport] at h
    dsimp only [Option.map_none, Option.getD_none] at h
    rw [List.append_nil, Str.rsplitOnce_eq_none hname] at h
    obtain ⟨rfl, rfl⟩ := Prod.mk.inj (Except.ok.inj h)
    exact ⟨rfl, (namedPort_of_none hport hscheme).symm⟩
  | some digits =>
    have hspelled := uri.port_spelled digits hport
    have hne : digits ≠ [] := fun hnil => hcolon (hnil ▸ hport)
    have hnocolon : ':' ∉ digits := not_mem_of_class hspelled (by decide)
    rw [hport] at h
    dsimp only [Option.map_some, Option.getD_some] at h
    rw [Str.rsplitOnce_append hnocolon] at h
    dsimp only at h
    rw [if_pos ⟨hne, List.all_eq_true.mpr hspelled⟩, Result.bind_eq_ok] at h
    obtain ⟨number, hnumber, h⟩ := h
    obtain ⟨rfl, rfl⟩ := Prod.mk.inj (Except.ok.inj h)
    exact ⟨rfl, namedPort_of_parseU16 hport hnumber⟩

/-- **What is written in full is read as it is meant.** -/
theorem target_of_inFull (hfull : uri.InFull) (h : parseAbsoluteUri uri.text = .ok absolute) :
    absolute.host = uri.host.named ∧
      ∃ port, absolute.port = some port ∧ port.toNat = uri.namedPort := by
  obtain ⟨hscheme, -, authority, port, hauthority, hport, hcut⟩ := cut_of_parseAbsoluteUri h
  suffices hsame : absolute.host = uri.host.named ∧ port.toNat = uri.namedPort from
    ⟨hsame.1, port, hport, hsame.2⟩
  cases hhost : uri.host with
  | literal text spelled =>
    obtain ⟨extra, hform, hextra⟩ : ∃ extra, authority = uri.authority ++ extra ∧
        (extra = [] ∨ extra.head? = some '?') := by
      rcases hcut with ⟨rfl, -⟩ | ⟨more, rfl, -⟩
      · exact ⟨[], (List.append_nil _).symm, .inl rfl⟩
      · exact ⟨_, rfl, .inr rfl⟩
    have hstrip : Str.stripPrefix ['['] authority =
        some (text ++ ']' :: ((uri.port.map (':' :: ·)).getD [] ++ extra)) := by
      rw [Str.stripPrefix_eq_some, hform, WireUri.authority, hhost]
      simp [WireHost.text]
    rw [parseAuthority, hstrip] at hauthority
    split at hauthority
    · cases hauthority
    · exact parseBracketed_literal hscheme spelled hextra hauthority
  | name text nonempty spelled =>
    obtain ⟨hcolon, hpath⟩ : uri.port ≠ some [] ∧ (uri.path ≠ [] ∨ uri.query = none) := by
      rcases hfull with hliteral | hname
      · rw [hhost] at hliteral
        cases hliteral
      · exact hname
    -- with a path, or without a query, the cut is where the authority ends
    obtain rfl : authority = uri.authority := by
      rcases hcut with ⟨rfl, -⟩ | ⟨more, -, hroot, hquery⟩
      · rfl
      · rcases hpath with hne | hnone
        · exact absurd hroot hne
        · exact absurd hnone hquery
    rw [WireUri.authority, hhost] at hauthority
    have hsplit := splitAuthority_of_parseAuthority nonempty spelled hauthority
    exact splitAuthority_name hscheme spelled hcolon hsplit

/-- A question mark is no part of a port. -/
theorem mem_host_of_splitAuthority {authority host : Text} {port : UInt16} (hmem : '?' ∈ authority)
    (h : splitAuthority authority 80 = .ok (host, port)) : '?' ∈ host := by
  rcases splitAuthority_cases h with ⟨digits, rfl, hdigits⟩ | rfl
  · have hnot : '?' ∉ digits := not_mem_of_class hdigits (by decide)
    rcases List.mem_append.mp hmem with hhost | hrest
    · exact hhost
    · rcases List.mem_cons.mp hrest with heq | hdigit
      · cases heq
      · exact absurd hdigit hnot
  · exact hmem

/-- **What is not, is not**: the name that is read is another one. -/
theorem host_of_not_inFull (hfull : ¬ uri.InFull) (h : parseAbsoluteUri uri.text = .ok absolute) :
    absolute.host ≠ uri.host.named := by
  obtain ⟨-, -, authority, port, hauthority, -, hcut⟩ := cut_of_parseAbsoluteUri h
  cases hhost : uri.host with
  | literal text spelled => exact absurd (.inl (by rw [hhost]; rfl)) hfull
  | name text nonempty spelled =>
    have hnocolon : ':' ∉ text := not_mem_of_class spelled (by decide)
    have hnoquery : '?' ∉ text := not_mem_of_class spelled (by decide)
    rcases hcut with ⟨rfl, hpath⟩ | ⟨more, rfl, -⟩
    · -- the colon has no digits, and stays with the name
      have hcolon : uri.port = some [] := by
        by_contra hne
        exact hfull (.inr ⟨hne, hpath⟩)
      rw [WireUri.authority, hhost, hcolon] at hauthority
      have hsplit := splitAuthority_of_parseAuthority nonempty spelled hauthority
      rw [splitAuthority] at hsplit
      dsimp only [Option.map_some, Option.getD_some] at hsplit
      rw [Str.rsplitOnce_append List.not_mem_nil] at hsplit
      obtain ⟨hread, -⟩ := Prod.mk.inj (Except.ok.inj hsplit)
      rw [← hread]
      show text ++ [':'] ≠ text
      intro heq
      have hmem : ':' ∈ text ++ [':'] := by simp
      exact hnocolon (heq ▸ hmem)
    · -- the query stays with the name
      rw [WireUri.authority, hhost, List.append_assoc] at hauthority
      have hsplit := splitAuthority_of_parseAuthority nonempty spelled hauthority
      have hmem : '?' ∈ absolute.host := mem_host_of_splitAuthority (by simp) hsplit
      show absolute.host ≠ text
      intro heq
      exact hnoquery (heq ▸ hmem)

end reading

/-! ## What the proxy takes off the stream -/

section framing
variable {request : WireRequest}

theorem join_asBytes (lines : List Text) :
    Text.asBytes (Lines.join '\r' '\n' lines) = Lines.join 0x0d 0x0a (lines.map Text.asBytes) := by
  induction lines with
  | nil => rfl
  | cons line lines ih =>
    rw [Lines.join_cons, Text.asBytes_append, List.map_cons, Lines.join_cons, ← ih]
    rfl

theorem unbroken_asBytes {t : Text} (h : Unbroken t) :
    Lines.Unbroken 0x0d 0x0a (Text.asBytes t) := by
  rw [Lines.Unbroken, List.isChain_iff_forall_rel_of_append_cons_cons]
  rintro a b before after hsplit ⟨rfl, rfl⟩
  obtain ⟨u, v, rfl, -, hv⟩ := Text.split_asBytes (show '\r'.toNat < 0x80 by decide) t before
    (0x0a :: after) hsplit
  have hascii : ∀ c ∈ ['\n'], c.toNat < 0x80 := List.all_iff_forall_prop.mp rfl
  obtain ⟨w, rfl, -⟩ := Text.prefix_asBytes hascii hv
  rw [Unbroken, Lines.Unbroken, List.isChain_iff_forall_rel_of_append_cons_cons] at h
  exact h rfl ⟨rfl, rfl⟩

/-- A text of visible characters has no line end in it. -/
theorem newline_not_mem {t : Text} (h : ∀ c ∈ t, IsVisible c ∨ c = ' ') :
    (0x0a : UInt8) ∉ Text.asBytes t := by
  intro hmem
  have hchar : Char.ofNat (0x0a : UInt8).toNat ∈ t := Text.mem_of_mem_asBytes hmem (by decide)
  rcases h _ hchar with hvisible | hspace
  · exact absurd hvisible (by decide)
  · exact absurd hspace (by decide)

/-- The characters of a URI. -/
theorem uri_visible (uri : WireUri) : ∀ c ∈ uri.text, IsVisible c := by
  intro c hc
  have hquery : ∀ c, isQueryChar c = true → IsVisible c := fun _ => isVisible_of_isQueryChar
  rcases List.mem_append.mp hc with hscheme | hrest
  · rcases List.mem_append.mp hscheme with hscheme | hslashes
    · exact isVisible_of_isSchemeChar (uri.scheme_spelled c hscheme)
    · have hall : ∀ d ∈ "://".toList, IsVisible d := List.all_iff_forall_prop.mp rfl
      exact hall c hslashes
  · rcases List.mem_append.mp hrest with hauthority | htail
    · rcases authority_spelled uri c hauthority with hliteral | rfl | rfl
      · exact hquery c (by rw [isQueryChar, isPathChar, hliteral]; rfl)
      · decide
      · decide
    · rcases List.mem_append.mp htail with hpath | hquestion
      · exact hquery c (by rw [isQueryChar, uri.path_spelled c hpath]; rfl)
      · cases hkind : uri.query with
        | none =>
          rw [hkind] at hquestion
          cases hquestion
        | some query =>
          rw [hkind] at hquestion
          rcases List.mem_cons.mp hquestion with rfl | hmem
          · decide
          · exact hquery c (uri.query_spelled query hkind c hmem)

/-- The words of the request line are visible. -/
theorem requestLine_visible (request : WireRequest) :
    ∀ c ∈ request.method ++ request.uri.text ++ "HTTP/1.1".toList, IsVisible c := by
  intro c hc
  rcases List.mem_append.mp hc with hc | hversion
  · rcases List.mem_append.mp hc with hmethod | huri
    · exact isVisible_of_isTokenChar (request.method_spelled c hmethod)
    · exact uri_visible request.uri c huri
  · have hall : ∀ d ∈ "HTTP/1.1".toList, IsVisible d := List.all_iff_forall_prop.mp rfl
    exact hall c hversion

/-- The lines of a request are neither broken nor empty. -/
theorem lines_unbroken (request : WireRequest) :
    ∀ line ∈ request.lines, Lines.Unbroken 0x0d 0x0a line ∧ line ≠ [] := by
  refine List.forall_mem_cons.mpr ⟨⟨?_, ?_⟩, ?_⟩
  · refine Lines.unbroken_of_not_mem (newline_not_mem fun c hc => ?_)
    simp only [WireRequest.requestLine, List.append_assoc, List.cons_append, List.mem_append,
      List.mem_cons] at hc
    have hvisible := requestLine_visible request c
    simp only [List.mem_append] at hvisible
    rcases hc with hmethod | rfl | huri | rfl | hversion
    · exact .inl (hvisible (.inl (.inl hmethod)))
    · exact .inr rfl
    · exact .inl (hvisible (.inl (.inr huri)))
    · exact .inr rfl
    · exact .inl (hvisible (.inr hversion))
  · rw [Ne, Text.asBytes_eq_nil]
    simp [WireRequest.requestLine]
  · intro line hmem
    obtain ⟨header, -, rfl⟩ := List.mem_map.mp hmem
    refine ⟨Lines.unbroken_of_not_mem fun hfeed => ?_, by simp [WireHeader.line]⟩
    rcases List.mem_append.mp hfeed with hname | hrest
    · refine newline_not_mem (fun c hc => .inl ?_) hname
      exact isVisible_of_isTokenChar (header.name_spelled c hc)
    · rcases List.mem_cons.mp hrest with heq | hvalue
      · exact absurd heq (by decide)
      · exact header.value_clean.2 hvalue

/-- A request ends where it first looks as if it did. -/
theorem bytes_end (request : WireRequest) :
    endOfHead <:+ request.bytes ∧
      ∀ init, init <+: request.bytes → endOfHead <:+ init → init = request.bytes := by
  constructor
  · have hsome : request.lines ≠ [] := List.cons_ne_nil _ _
    obtain ⟨head, hblock, -⟩ := Lines.split_of_block (show (0x0d : UInt8) ≠ 0x0a by decide) hsome
      fun line hmem => (lines_unbroken request line hmem).1
    exact ⟨head, hblock.symm⟩
  · rintro init ⟨after, hafter⟩ ⟨before, rfl⟩
    have hnone : after = [] := by
      apply Lines.blank_unique (show (0x0d : UInt8) ≠ 0x0a by decide) (lines_unbroken request)
      rw [← WireRequest.bytes, ← hafter, List.append_assoc]
      rfl
    rw [← hafter, hnone, List.append_nil]

/-- The loop takes a head off the stream if it is not too long. -/
theorem readLoop_head {readError : Option String} {head : Bytes} (hend : endOfHead <:+ head)
    (honce : ∀ init, init <+: head → endOfHead <:+ init → init = head) {buf todo : Bytes}
    (htodo : todo ≠ []) (hsplit : buf ++ todo = head) (rest : Bytes) :
    readLoop readError buf (todo ++ rest) =
      if head.length ≤ maxHeaderSize then .ok (head, rest)
      else bail s!"HTTP headers exceed {maxHeaderSize} bytes" := by
  induction todo generalizing buf with
  | nil => exact absurd rfl htodo
  | cons b todo ih =>
    have hlength : buf.length + (todo.length + 1) = head.length := by
      rw [← hsplit, List.length_append, List.length_cons]
    have hconcat : (buf ++ [b]) ++ todo = head := by
      rw [List.append_assoc]
      exact hsplit
    rw [List.cons_append, readLoop]
    by_cases hroom : buf.length < maxHeaderSize
    · rw [if_pos hroom]
      cases todo with
      | nil =>
        -- the last byte of the head
        rw [List.append_nil] at hconcat
        have hfits : head.length ≤ maxHeaderSize := by
          rw [List.length_nil] at hlength
          omega
        rw [hconcat, if_pos hend, if_pos hfits]
        rfl
      | cons c todo =>
        -- the head ends once, and this is not the place
        have hnot : ¬ endOfHead <:+ buf ++ [b] := by
          intro hearly
          have hall := honce _ ⟨_, hconcat⟩ hearly
          rw [hall] at hconcat
          have hshort := congrArg List.length hconcat
          rw [List.length_append, List.length_cons] at hshort
          omega
        rw [if_neg hnot]
        exact ih (List.cons_ne_nil _ _) hconcat
    · have hlong : ¬ head.length ≤ maxHeaderSize := by omega
      rw [if_neg hroom, if_neg hlong]

theorem readHeader_request {client : ClientStream} {rest : Bytes}
    (hbytes : client.bytes = request.bytes ++ rest) :
    readHeader client =
      if request.bytes.length ≤ maxHeaderSize then .ok (request.bytes, rest)
      else bail s!"HTTP headers exceed {maxHeaderSize} bytes" := by
  obtain ⟨hend, honce⟩ := bytes_end request
  have hsome : request.bytes ≠ [] := by
    intro hnil
    rw [hnil] at hend
    exact absurd (List.suffix_nil.mp hend) (by decide)
  rw [readHeader, hbytes]
  exact readLoop_head hend honce hsome (List.nil_append _) rest

/-- The lines of what is parsed are those of the request. -/
theorem lines_of_head {head : Text}
    (h : Text.asBytes (head ++ ['\r', '\n', '\r', '\n']) = request.bytes) :
    (Lines.split '\r' '\n' head).map Text.asBytes = request.lines := by
  have hpieces : ∀ line ∈ (Lines.split '\r' '\n' head).map Text.asBytes,
      Lines.Unbroken 0x0d 0x0a line := by
    intro line hmem
    obtain ⟨t, ht, rfl⟩ := List.mem_map.mp hmem
    exact unbroken_asBytes (Lines.unbroken_of_mem_split ht)
  have hlines : ∀ line ∈ request.lines, Lines.Unbroken 0x0d 0x0a line :=
    fun line hmem => (lines_unbroken request line hmem).1
  -- both sides are blocks, and the same one
  apply Lines.block_inj (show (0x0d : UInt8) ≠ 0x0a by decide) hpieces hlines
  rw [← WireRequest.bytes, ← h, ← Lines.join_split_block, join_asBytes, List.map_append]
  rfl

/-- The request line splits into the words it is made of. -/
theorem splitWhitespace_requestLine (request : WireRequest) :
    Str.splitWhitespace request.requestLine =
      [request.method, request.uri.text, "HTTP/1.1".toList] := by
  apply Str.splitWhitespace_words request.method_nonempty
  · simp [WireUri.text]
  · decide
  · intro c hc
    exact noWhitespace_of_isVisible (requestLine_visible request c hc)

/-- The words the proxy reads are those of the request line. -/
theorem words_of_parseRequest {parts : RequestParts} (h : parseRequest request.bytes = .ok parts) :
    parts.method = request.method ∧ parts.target = request.uri.text := by
  obtain ⟨head, line, lines, hbytes, hsplit, hwords, -⟩ := parseRequest_spec h
  -- the text is the request's own, so it has its lines
  have hsame := lines_of_head hbytes
  rw [hsplit, List.map_cons, WireRequest.lines] at hsame
  have hline : line = request.requestLine := Text.asBytes_inj (List.cons.inj hsame).1
  have hsplitWords := (parseRequestLine_spec hwords).1
  rw [hline, splitWhitespace_requestLine] at hsplitWords
  obtain ⟨hmethod, htail⟩ := List.cons.inj hsplitWords
  exact ⟨hmethod.symm, (List.cons.inj htail).1.symm⟩

end framing

end Http

end EchProxy
