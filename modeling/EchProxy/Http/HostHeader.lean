import EchProxy.Http.Authority

/-! # The Host Header

    A request without a `Host` gets one that is made of the host and the port
    its URI was read with.  The brackets of a literal are not put back, so
    reading the header need not give the same host and port.
-/

namespace EchProxy

namespace Http

open Checked

/-! ## Reading the value back -/

/-- The host and the port can be told apart in the value. -/
structure ReadsBack (host : Text) (port : UInt16) : Prop where
  nonempty : host ≠ []
  bracket : host.head? ≠ some '['
  port_ne_zero : port ≠ 0
  unmarked : port = 80 → ¬ EndsWithPort host

/-- A text that goes on as it began is made of one character. -/
theorem eq_of_shift {x c : Char} {host more rest : Text}
    (h : host ++ x :: more = c :: host ++ rest) : x = c := by
  induction host with
  | nil => exact (List.cons.inj h).1
  | cons y host ih =>
    obtain ⟨rfl, htail⟩ := List.cons.inj h
    exact ih htail

section value
variable {authority host : Text} {port : UInt16} {uri : AbsoluteUri}

/-- The value that is written. -/
theorem hostValue_eq (hport : uri.port = some port) :
    hostValue uri = if port = 80 then uri.host else withPort uri.host port := by
  rw [hostValue, hport]
  rfl

/-- **The value is read back** where host and port can be told apart. -/
theorem parseAuthority_hostValue (hport : uri.port = some port) (hat : '@' ∉ uri.host)
    (hspace : NoSpace uri.host) :
    parseAuthority (hostValue uri) 80 = .ok (uri.host, port) ↔ ReadsBack uri.host port := by
  rw [hostValue_eq hport]
  constructor
  · intro h
    obtain ⟨-, haccepts⟩ := parseAuthority_eq_ok.mp h
    cases haccepts with
    | bracketed rest hbracket hread =>
      -- the value begins with the host, which then would begin with a bracket of its own
      exfalso
      obtain ⟨after, rfl, -⟩ := parseBracketed_eq_ok.mp hread
      split at hbracket
      · have hlength := congrArg List.length hbracket
        simp at hlength
        omega
      · exact absurd (eq_of_shift hbracket) (by decide)
    | plain hbracket hread hhost hzero _ =>
      refine ⟨hhost, ?_, hzero, ?_⟩
      · intro hhead
        obtain ⟨rest, hrest⟩ := List.head?_eq_some_iff.mp hhead
        split at hbracket
        · exact hbracket rest hrest
        · exact hbracket _ (by rw [withPort, hrest, List.cons_append])
      · intro hdefault hends
        rw [if_pos hdefault] at hread
        rcases splitAuthority_eq_ok.mp hread with ⟨digits, hform, -⟩ | ⟨-, -, hnone⟩
        · have hlength := congrArg List.length hform
          simp at hlength
        · exact hnone hends
  · intro h
    split
    · next hdefault =>
      rw [hdefault]
      exact parseAuthority_bare h.nonempty hat hspace h.bracket (h.unmarked hdefault) (by decide)
    · exact parseAuthority_withPort h.nonempty hat hspace h.bracket h.port_ne_zero

end value

/-! ## In terms of the authority -/

/-- The authority in the target of a request. -/
def authorityOf (target : Text) : Text :=
  match Str.splitOnce "://".toList target with
  | some (_, rest) => (cutPath rest).1
  | none => []

/-- The kinds of authorities whose host and port are not told apart again.  In
    brackets the host is empty or has a bracket itself, the port is zero, or it
    is the default and the host looks as if it had one, as `::1` does; without
    brackets the port is the default and the host looks so. -/
inductive Ambiguous (authority : Text) : Prop
  | empty (after : Text) (hform : authority = '[' :: ']' :: after)
  | brackets (rest : Text) (hform : authority = '[' :: '[' :: rest)
  | zeroPort (host number : Text) (hform : authority = '[' :: host ++ ']' :: ':' :: number)
      (hclose : ']' ∉ host) (hnumber : Str.parseUnsigned 65535 number = some 0)
  | literal (host after : Text) (hform : authority = '[' :: host ++ ']' :: after)
      (hclose : ']' ∉ host) (hends : EndsWithPort host)
      (hafter : after = [] ∨
        ∃ number, after = ':' :: number ∧ Str.parseUnsigned 65535 number = some 80)
  | name (host digits : Text) (hform : authority = host ++ ':' :: digits)
      (hbracket : authority.head? ≠ some '[') (hends : EndsWithPort host)
      (hdigits : Str.IsDigits digits) (hdefault : Str.decimal digits = 80)

section authority
variable {authority host : Text} {port : UInt16}

/-- The number in brackets as the code reads it. -/
theorem parseUnsigned_of_parseU16 {number : Text} (h : parseU16 number = .ok port) :
    Str.parseUnsigned 65535 number = some port.toNat := by
  obtain ⟨digits, hform, hdigits, hvalue⟩ := parseU16_eq_ok.mp h
  have hlt := port.toNat_lt
  exact Str.parseUnsigned_eq_some.mpr ⟨digits, hform, hdigits, hvalue, by omega⟩

/-- What is in the brackets is told by the first closing one. -/
theorem bracketed_inj {host host' after after' : Text} (hclose : ']' ∉ host) (hclose' : ']' ∉ host')
    (h : '[' :: host ++ ']' :: after = '[' :: host' ++ ']' :: after') :
    host = host' ∧ after = after' := by
  obtain ⟨-, htail⟩ := List.cons.inj h
  obtain ⟨rfl, -⟩ := Lines.eq_of_cut htail hclose' hclose
  exact ⟨rfl, (List.cons.inj (List.append_cancel_left htail)).2⟩

/-- In brackets. -/
theorem readsBack_bracketed {after : Text} (hclose : ']' ∉ host)
    (hport : (after = [] ∧ port = 80) ∨ ∃ number, after = ':' :: number ∧ parseU16 number = .ok port) :
    ReadsBack host port ↔ ¬ Ambiguous ('[' :: host ++ ']' :: after) := by
  constructor
  · intro ⟨hnonempty, hbracket, hzero, hunmarked⟩ hambiguous
    cases hambiguous with
    | empty after' hform =>
      have hsplit : '[' :: host ++ ']' :: after = '[' :: [] ++ ']' :: after' := hform
      exact hnonempty (bracketed_inj hclose List.not_mem_nil hsplit).1
    | brackets rest hform =>
      cases host with
      | nil => exact hnonempty rfl
      | cons c host =>
        rw [List.cons_append, List.cons_append] at hform
        obtain rfl := (List.cons.inj (List.cons.inj hform).2).1
        exact hbracket rfl
    | zeroPort host' number hform hclose' hnumber =>
      obtain ⟨rfl, rfl⟩ := bracketed_inj hclose hclose' hform
      rcases hport with ⟨hnil, -⟩ | ⟨number', hsame, hvalue⟩
      · cases hnil
      · obtain rfl := (List.cons.inj hsame).2
        rw [parseUnsigned_of_parseU16 hvalue, Option.some.injEq] at hnumber
        exact hzero (UInt16.toNat_inj.mp hnumber)
    | literal host' after' hform hclose' hends hafter =>
      obtain ⟨rfl, rfl⟩ := bracketed_inj hclose hclose' hform
      -- both readings of what is behind the bracket give port 80
      have hdefault : port = 80 := by
        rcases hport with ⟨-, hdefault⟩ | ⟨number', rfl, hvalue⟩
        · exact hdefault
        · rcases hafter with hnil | ⟨number, hsame, hnumber⟩
          · cases hnil
          · obtain rfl := (List.cons.inj hsame).2
            rw [parseUnsigned_of_parseU16 hvalue, Option.some.injEq] at hnumber
            exact UInt16.toNat_inj.mp hnumber
      exact hunmarked hdefault hends
    | name host' digits hform hbracket' hends hdigits hdefault => exact hbracket' rfl
  · intro hnot
    refine ⟨?_, ?_, ?_, ?_⟩
    · rintro rfl
      exact hnot (.empty after rfl)
    · intro hhead
      obtain ⟨rest, rfl⟩ := List.head?_eq_some_iff.mp hhead
      exact hnot (.brackets _ rfl)
    · rintro rfl
      rcases hport with ⟨-, hzero⟩ | ⟨number, rfl, hvalue⟩
      · cases hzero
      · exact hnot (.zeroPort host number rfl hclose (parseUnsigned_of_parseU16 hvalue))
    · rintro rfl hends
      refine hnot (.literal host after rfl hclose hends ?_)
      rcases hport with ⟨hnil, -⟩ | ⟨number, hnumber, hvalue⟩
      · exact .inl hnil
      · exact .inr ⟨number, hnumber, parseUnsigned_of_parseU16 hvalue⟩

/-- Without brackets. -/
theorem readsBack_plain (hbracket : ∀ rest, authority ≠ '[' :: rest)
    (hread : splitAuthority authority 80 = .ok (host, port)) (hhost : host ≠ []) (hzero : port ≠ 0) :
    ReadsBack host port ↔ ¬ Ambiguous authority := by
  have hhead : authority.head? ≠ some '[' := by
    intro hhead
    obtain ⟨rest, hrest⟩ := List.head?_eq_some_iff.mp hhead
    exact hbracket rest hrest
  -- the host is how the authority begins
  have hhost' : host.head? ≠ some '[' := by
    rcases splitAuthority_eq_ok.mp hread with ⟨digits, rfl, -⟩ | ⟨rfl, -⟩
    · rwa [List.head?_append_of_ne_nil _ hhost] at hhead
    · exact hhead
  constructor
  · intro ⟨_, _, _, hunmarked⟩ hambiguous
    cases hambiguous with
    | empty after hform => exact hbracket _ hform
    | brackets rest hform => exact hbracket _ hform
    | zeroPort host' number hform hclose hnumber => exact hbracket _ hform
    | literal host' after hform hclose hends hafter => exact hbracket _ hform
    | name host' digits hform _ hends hdigits hdefault =>
      rcases splitAuthority_eq_ok.mp hread with ⟨digits', hform', hdigits', hvalue⟩ | ⟨-, -, hnone⟩
      · have hcut := rsplitOnce_digits hdigits host'
        rw [← hform, hform', rsplitOnce_digits hdigits' host, Option.some.injEq] at hcut
        obtain ⟨rfl, rfl⟩ := Prod.mk.inj hcut
        rw [hdefault] at hvalue
        exact hunmarked (UInt16.toNat_inj.mp hvalue.symm) hends
      · exact hnone ⟨host', digits, hform, hdigits⟩
  · intro hnot
    refine ⟨hhost, hhost', hzero, ?_⟩
    rintro rfl hends
    rcases splitAuthority_eq_ok.mp hread with ⟨digits, hform, hdigits, hvalue⟩ | ⟨rfl, -, hnone⟩
    · exact hnot (.name host digits hform hhead hends hdigits hvalue)
    · exact hnone hends

/-- **Which authorities are read back.** -/
theorem readsBack_iff (h : parseAuthority authority 80 = .ok (host, port)) :
    ReadsBack host port ↔ ¬ Ambiguous authority := by
  obtain ⟨-, haccepts⟩ := parseAuthority_eq_ok.mp h
  cases haccepts with
  | bracketed rest hbracket hread =>
    obtain ⟨after, rfl, hclose, hport⟩ := parseBracketed_eq_ok.mp hread
    rw [hbracket, ← List.cons_append]
    exact readsBack_bracketed hclose hport
  | plain hbracket hread hhost hzero hspace => exact readsBack_plain hbracket hread hhost hzero

end authority

/-! ## The header that is written -/

/-- The `Host` of the request that is sent is read back as the target of the
    connection. -/
def HostNamesTarget (request : RequestParts) (uri : AbsoluteUri) : Prop :=
  ∃ sent value port,
    parseRequest (Text.asBytes (rewriteAbsoluteRequest request uri)) = .ok sent ∧
    findHeader "Host".toList sent.headers = some value ∧ uri.port = some port ∧
    parseAuthority value 80 = .ok (uri.host, port)

/-- A text without white space has no white space in its bytes. -/
theorem noSpace_of_noWhitespace {t : Text} (h : ∀ c ∈ t, Str.isWhitespace c = false) :
    NoSpace t := by
  intro b hb
  by_contra hspace
  rw [Bool.not_eq_false] at hspace
  have hsmall : b.toNat < 0x80 ∧ Str.isWhitespace (Char.ofNat b.toNat) = true := by
    simp only [isAsciiWhitespace, Bool.or_eq_true, beq_iff_eq] at hspace
    rcases hspace with (((rfl | rfl) | rfl) | rfl) | rfl <;> decide
  have hnot := h _ (Text.mem_of_mem_asBytes hb hsmall.1)
  rw [hsmall.2] at hnot
  cases hnot

/-- Where there is no `Host`, the one that is made is the only one. -/
theorem findHeader_rewritten {request : RequestParts} (uri : AbsoluteUri)
    (hhost : findHeader "Host".toList request.headers = none) :
    findHeader "Host".toList (rewritten request uri).headers = some (hostValue uri) := by
  rw [findHeader, Option.map_eq_none_iff, List.find?_eq_none] at hhost
  have hany : (request.headers.any fun header =>
      Str.eqIgnoreAsciiCase header.1 "Host".toList) = false := by
    rw [List.any_eq_false]
    exact hhost
  have hkept : ∀ p : Text × Text → Bool, ((request.headers.filter p).find? fun header =>
      Str.eqIgnoreAsciiCase header.1 "Host".toList) = none := by
    intro p
    rw [List.find?_eq_none]
    exact fun header hmem => hhost header (List.mem_filter.mp hmem).1
  rw [findHeader, rewritten]
  dsimp only
  rw [hany, if_neg Bool.false_ne_true, List.find?_append, hkept]
  rfl

/-- So it is the value that counts. -/
theorem hostNamesTarget_iff {header : Bytes} {request : RequestParts} {uri : AbsoluteUri}
    {port : UInt16} (hrequest : parseRequest header = .ok request)
    (huri : parseAbsoluteUri request.target = .ok uri)
    (hhost : findHeader "Host".toList request.headers = none) (hport : uri.port = some port) :
    HostNamesTarget request uri ↔ parseAuthority (hostValue uri) 80 = .ok (uri.host, port) := by
  have hsent : parseRequest (Text.asBytes (rewriteAbsoluteRequest request uri)) =
      .ok (rewritten request uri) := by
    rw [rewriteAbsoluteRequest_eq_render]
    exact parseRequest_render (rewritten_parsed (parsed_of_parseRequest hrequest) huri)
  constructor
  · intro ⟨sent, value, port', hsent', hvalue, hport', hback⟩
    obtain rfl := Except.ok.inj (hsent.symm.trans hsent')
    rw [findHeader_rewritten uri hhost, Option.some.injEq] at hvalue
    rw [hport, Option.some.injEq] at hport'
    rwa [hvalue, hport']
  · intro hback
    exact ⟨_, _, port, hsent, findHeader_rewritten uri hhost, hport, hback⟩

/-- **The synthesized `Host` names the dialled target, exactly** where the host and
    the port can be told apart again. -/
theorem hostNamesTarget_exact {header : Bytes} {request : RequestParts} {uri : AbsoluteUri}
    (hrequest : parseRequest header = .ok request) (huri : parseAbsoluteUri request.target = .ok uri)
    (hhost : findHeader "Host".toList request.headers = none) :
    HostNamesTarget request uri ↔ ¬ Ambiguous (authorityOf request.target) := by
  obtain ⟨scheme, rest, host, port, hsplit, -, hauthority, hread⟩ := parseAbsoluteUri_eq_ok.mp huri
  have hport : uri.port = some port := by rw [hread]
  have hsame : uri.host = host := by rw [hread]
  have hof : authorityOf request.target = (cutPath rest).1 := by rw [authorityOf, hsplit]
  have hspace : NoSpace uri.host :=
    noSpace_of_noWhitespace (words_of_parseAbsoluteUri (parsed_of_parseRequest hrequest).target huri).2
  have hat : '@' ∉ uri.host := by
    intro hmem
    exact (parseAuthority_eq_ok.mp hauthority).1 (parseAuthority_subset hauthority _ (hsame ▸ hmem))
  rw [hostNamesTarget_iff hrequest huri hhost hport, parseAuthority_hostValue hport hat hspace, hof,
    ← readsBack_iff hauthority, hsame]

/-! ## Two requests -/

/-- A request for the root of this authority. -/
def exampleGetOf (authority : Text) : RequestParts where
  method := "GET".toList
  target := "http://".toList ++ authority ++ ['/']
  version := "HTTP/1.1".toList
  headers := []

theorem exampleGetOf_parsed {authority : Text}
    (h : ∀ c ∈ authority, Str.isWhitespace c = false) :
    parseRequest (Text.asBytes (render (exampleGetOf authority))) = .ok (exampleGetOf authority) := by
  apply parseRequest_render
  have hscheme : ∀ c ∈ "http://".toList, Str.isWhitespace c = false := List.all_iff_forall_prop.mp rfl
  exact {
    method := ⟨show "GET".toList ≠ [] by decide, List.all_iff_forall_prop.mp rfl⟩
    target := by
      refine ⟨by simp [exampleGetOf], fun c hc => ?_⟩
      rcases List.mem_append.mp hc with hc | hc
      · rcases List.mem_append.mp hc with hc | hc
        · exact hscheme c hc
        · exact h c hc
      · rw [List.mem_singleton.mp hc]
        rfl
    version := ⟨show "HTTP/1.1".toList ≠ [] by decide, List.all_iff_forall_prop.mp rfl⟩
    http := show Str.startsWith "HTTP/".toList "HTTP/1.1".toList = true by decide
    headers := by
      intro header hmem
      cases hmem }

/-- The port of a literal keeps it apart from its host. -/
theorem hostNamesTarget_example :
    HostNamesTarget (exampleGetOf "[::1]:8080".toList)
      ⟨"http".toList, "::1".toList, some 8080, "/".toList⟩ := by
  have hspaces : ∀ c ∈ "[::1]:8080".toList, Str.isWhitespace c = false :=
    List.all_iff_forall_prop.mp rfl
  have hauthority : parseAuthority "[::1]:8080".toList 80 = .ok ("::1".toList, 8080) := by decide
  have hreads : ReadsBack "::1".toList 8080 :=
    ⟨by decide, by decide, by decide, fun hdefault => absurd hdefault (by decide)⟩
  refine (hostNamesTarget_exact (exampleGetOf_parsed hspaces) (by decide) rfl).mpr ?_
  exact (readsBack_iff hauthority).mp hreads

/-- The default port does not: `Host: ::1` is read as port 1 of the host `:`. -/
theorem host_of_literal_misread :
    ¬ ∀ (header : Bytes) (request : RequestParts) (uri : AbsoluteUri),
      parseRequest header = .ok request → parseAbsoluteUri request.target = .ok uri →
      findHeader "Host".toList request.headers = none → HostNamesTarget request uri := by
  intro hclaim
  have hspaces : ∀ c ∈ "[::1]".toList, Str.isWhitespace c = false := List.all_iff_forall_prop.mp rfl
  have huri : parseAbsoluteUri (exampleGetOf "[::1]".toList).target =
      .ok ⟨"http".toList, "::1".toList, some 80, "/".toList⟩ := by decide
  have hrequest := exampleGetOf_parsed hspaces
  have hback := (hostNamesTarget_iff hrequest huri rfl rfl).mp (hclaim _ _ _ hrequest huri rfl)
  have hread : parseAuthority "::1".toList 80 = .ok (":".toList, 1) := by decide
  cases hread.symm.trans hback

end Http

end EchProxy
