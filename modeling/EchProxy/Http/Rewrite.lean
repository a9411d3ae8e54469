import EchProxy.Http.Handle

/-! # Rewriting Preserves a Request

    What `parse_request` returns has words without white space and fields that
    are trimmed and unbroken.  Such a request has a rendering, and parsing
    undoes it.  `rewrite_absolute_request` writes the rendering of the request
    it means to send.
-/

namespace EchProxy

namespace Http

open Checked

/-! ## Parsed requests -/

/-- No line end stands inside the text. -/
abbrev Unbroken (t : Text) : Prop := Lines.Unbroken '\r' '\n' t

/-- A word of a request line. -/
def IsWord (t : Text) : Prop := t ≠ [] ∧ ∀ c ∈ t, Str.isWhitespace c = false

/-- A header as `parse_request` makes it. -/
structure HeaderParsed (header : Text × Text) : Prop where
  colon : ':' ∉ header.1
  name : Str.trim header.1 = header.1
  value : Str.trim header.2 = header.2
  name_unbroken : Unbroken header.1
  value_unbroken : Unbroken header.2

/-- A request as `parse_request` makes it. -/
structure RequestParsed (request : RequestParts) : Prop where
  method : IsWord request.method
  target : IsWord request.target
  version : IsWord request.version
  http : Str.startsWith "HTTP/".toList request.version = true
  headers : ∀ header ∈ request.headers, HeaderParsed header

theorem unbroken_of_noWhitespace {t : Text} (h : ∀ c ∈ t, Str.isWhitespace c = false) :
    Unbroken t := by
  apply Lines.unbroken_of_not_mem
  intro hmem
  have hfeed := h _ hmem
  cases hfeed

theorem parseRequestLine_parsed {line method target version : Text}
    (h : parseRequestLine line = .ok (method, target, version)) :
    (IsWord method ∧ IsWord target ∧ IsWord version) ∧
      Str.startsWith "HTTP/".toList version = true := by
  obtain ⟨hwords, hhttp⟩ := parseRequestLine_spec h
  have hword : ∀ word ∈ Str.splitWhitespace line, IsWord word :=
    fun _ hmem => Str.mem_splitWhitespace hmem
  rw [hwords] at hword
  exact ⟨⟨hword _ (by simp), hword _ (by simp), hword _ (by simp)⟩, hhttp⟩

theorem parseHeader_parsed {line : Text} {header : Text × Text} (hline : Unbroken line)
    (h : parseHeader line = .ok header) : HeaderParsed header := by
  obtain ⟨name, value, rfl, hcolon, rfl⟩ := parseHeader_spec h
  have hname : Str.trim name <:+: name ++ ':' :: value :=
    (Str.trim_infix name).trans (List.prefix_append _ _).isInfix
  have hvalue : Str.trim value <:+: name ++ ':' :: value := by
    refine (Str.trim_infix value).trans (List.IsSuffix.isInfix ⟨name ++ [':'], ?_⟩)
    simp
  exact {
    colon := fun hmem => hcolon ((Str.trim_infix name).subset hmem)
    name := Str.trim_trim name
    value := Str.trim_trim value
    name_unbroken := hline.of_infix hname
    value_unbroken := hline.of_infix hvalue }

theorem parseHeaders_parsed {lines : List Text} {headers : List (Text × Text)}
    (hlines : ∀ line ∈ lines, Unbroken line) (h : parseHeaders lines = .ok headers) :
    ∀ header ∈ headers, HeaderParsed header := by
  have hspec := parseHeaders_spec h
  clear h
  induction hspec with
  | nil =>
    intro header hmem
    cases hmem
  | cons hfirst _ ih =>
    obtain ⟨hline, hrest⟩ := List.forall_mem_cons.mp hlines
    exact List.forall_mem_cons.mpr ⟨parseHeader_parsed hline hfirst, ih hrest⟩

/-- **What is parsed is well formed.** -/
theorem parsed_of_parseRequest {header : Bytes} {request : RequestParts}
    (h : parseRequest header = .ok request) : RequestParsed request := by
  obtain ⟨head, line, lines, -, hsplit, hwords, hheaders⟩ := parseRequest_spec h
  obtain ⟨⟨hmethod, htarget, hversion⟩, hhttp⟩ := parseRequestLine_parsed hwords
  have hlines : ∀ line ∈ lines, Unbroken line := by
    intro line hmem
    exact Lines.unbroken_of_mem_split (hsplit ▸ List.mem_cons_of_mem _ hmem)
  exact ⟨hmethod, htarget, hversion, hhttp, parseHeaders_parsed hlines hheaders⟩

/-! ## Rendering -/

/-- The request line of a request. -/
def requestLine (request : RequestParts) : Text :=
  request.method ++ ' ' :: request.target ++ ' ' :: request.version

/-- The line of a header. -/
def headerText (header : Text × Text) : Text := header.1 ++ ':' :: ' ' :: header.2

/-- The lines of a head, with the empty one that ends it. -/
def headLines (request : RequestParts) : List Text :=
  requestLine request :: request.headers.map headerText

/-- The head of a request. -/
def render (request : RequestParts) : Text :=
  Lines.join '\r' '\n' (headLines request ++ [[]])

/-- A line of three words. -/
theorem parseRequestLine_of_words {line method target version : Text}
    (hwords : Str.splitWhitespace line = [method, target, version])
    (hhttp : Str.startsWith "HTTP/".toList version = true) :
    parseRequestLine line = .ok (method, target, version) := by
  rw [parseRequestLine, hwords]
  dsimp only
  rw [if_neg]
  · rfl
  · rintro (hmore | hversion)
    · exact hmore rfl
    · rw [hhttp] at hversion
      cases hversion

theorem parseRequestLine_requestLine {request : RequestParts} (h : RequestParsed request) :
    parseRequestLine (requestLine request) =
      .ok (request.method, request.target, request.version) := by
  have hwords : Str.splitWhitespace (requestLine request) =
      [request.method, request.target, request.version] := by
    apply Str.splitWhitespace_words h.method.1 h.target.1 h.version.1
    intro c hc
    simp only [List.mem_append] at hc
    rcases hc with (hc | hc) | hc
    · exact h.method.2 c hc
    · exact h.target.2 c hc
    · exact h.version.2 c hc
  exact parseRequestLine_of_words hwords h.http

theorem parseHeader_headerText {header : Text × Text} (h : HeaderParsed header) :
    parseHeader (headerText header) = .ok header := by
  have hsplit : Str.splitOnce [':'] (headerText header) = some (header.1, ' ' :: header.2) :=
    Str.splitOnce_cons h.colon _
  have hspace : Str.trim (' ' :: header.2) = header.2 := by
    rw [Str.trim_cons_of_whitespace (by decide), h.value]
  rw [parseHeader, hsplit]
  dsimp only
  rw [h.name, hspace]
  rfl

theorem parseHeaders_map {headers : List (Text × Text)}
    (h : ∀ header ∈ headers, HeaderParsed header) :
    parseHeaders (headers.map headerText) = .ok headers := by
  induction headers with
  | nil => rfl
  | cons header headers ih =>
    obtain ⟨hheader, hheaders⟩ := List.forall_mem_cons.mp h
    rw [List.map_cons, parseHeaders, parseHeader_headerText hheader, Result.ok_bind, ih hheaders]
    rfl

/-- The lines of a head are neither broken nor empty. -/
theorem headLines_unbroken {request : RequestParts} (h : RequestParsed request) :
    ∀ line ∈ headLines request, Unbroken line ∧ line ≠ [] := by
  refine List.forall_mem_cons.mpr ⟨⟨?_, ?_⟩, ?_⟩
  · have hmethod := unbroken_of_noWhitespace h.method.2
    have htarget := unbroken_of_noWhitespace h.target.2
    have hversion := unbroken_of_noWhitespace h.version.2
    rw [requestLine]
    exact (hmethod.append_cons htarget (by decide) (by decide)).append_cons hversion
      (by decide) (by decide)
  · simp [requestLine]
  · intro line hmem
    obtain ⟨header, hheader, rfl⟩ := List.mem_map.mp hmem
    have hparsed := h.headers header hheader
    have hvalue : Unbroken ([] ++ ' ' :: header.2) :=
      Lines.unbroken_nil.append_cons hparsed.value_unbroken (by decide) (by decide)
    refine ⟨?_, by simp [headerText]⟩
    exact hparsed.name_unbroken.append_cons hvalue (by decide) (by decide)

/-- A head is parsed line by line. -/
theorem parseRequest_block {line method target version : Text} {lines : List Text}
    {headers : List (Text × Text)} (hlines : ∀ l ∈ line :: lines, Unbroken l)
    (hline : parseRequestLine line = .ok (method, target, version))
    (hheaders : parseHeaders lines = .ok headers) :
    parseRequest (Text.asBytes (Lines.join '\r' '\n' (line :: lines ++ [[]]))) =
      .ok ⟨method, target, version, headers⟩ := by
  obtain ⟨head, hblock, hsplit⟩ := Lines.split_of_block (show '\r' ≠ '\n' by decide)
    (List.cons_ne_nil line lines) hlines
  rw [parseRequest, Text.fromUtf8_asBytes, context, Result.ok_bind, hblock,
    Str.stripSuffix_append, context, Result.ok_bind, hsplit]
  dsimp only
  rw [hline, Result.ok_bind, hheaders]
  rfl

/-- **Parsing undoes rendering.** -/
theorem parseRequest_render {request : RequestParts} (h : RequestParsed request) :
    parseRequest (Text.asBytes (render request)) = .ok request :=
  parseRequest_block (fun line hmem => (headLines_unbroken h line hmem).1)
    (parseRequestLine_requestLine h) (parseHeaders_map h.headers)

/-- **The head ends with its only empty line.** -/
theorem render_end {request : RequestParts} (h : RequestParsed request) :
    (∃ head, Text.asBytes (render request) = head ++ endOfHead) ∧
      ∀ before after, Text.asBytes (render request) = before ++ (endOfHead ++ after) →
        after = [] := by
  have hlines := headLines_unbroken h
  constructor
  · have hsome : headLines request ≠ [] := List.cons_ne_nil _ _
    obtain ⟨head, hblock, -⟩ := Lines.split_of_block (show '\r' ≠ '\n' by decide) hsome
      fun line hmem => (hlines line hmem).1
    refine ⟨Text.asBytes head, ?_⟩
    rw [render, hblock, Text.asBytes_append]
    rfl
  · intro before after hout
    -- from the bytes to the text
    obtain ⟨u, v, htext, -, hv⟩ := Text.split_asBytes (show '\r'.toNat < 0x80 by decide)
      (render request) before (Text.asBytes ['\n', '\r', '\n'] ++ after) hout
    have hascii : ∀ c ∈ ['\n', '\r', '\n'], c.toNat < 0x80 := List.all_iff_forall_prop.mp rfl
    obtain ⟨w, rfl, hw⟩ := Text.prefix_asBytes hascii hv
    have hnone : w = [] := Lines.blank_unique (show '\r' ≠ '\n' by decide) hlines htext
    rw [← hw, hnone, Text.asBytes_nil]

/-! ## The rewritten request -/

/-- The request that is sent to the origin server: without the headers that are for
    the proxy, and with a `Host`. -/
def rewritten (request : RequestParts) (uri : AbsoluteUri) : RequestParts where
  method := request.method
  target := uri.path
  version := request.version
  headers :=
    (request.headers.filter fun header =>
      !(Str.eqIgnoreAsciiCase header.1 "Proxy-Authorization".toList ||
        Str.eqIgnoreAsciiCase header.1 "Proxy-Connection".toList)) ++
    if request.headers.any fun header => Str.eqIgnoreAsciiCase header.1 "Host".toList then []
    else [("Host".toList, hostValue uri)]

/-! ## What a target gives -/

/-- What `splitAuthority` returns: the part before the last colon if digits stand
    behind it, else the whole authority with the default port. -/
theorem splitAuthority_cases {authority host : Text} {defaultPort port : UInt16}
    (h : splitAuthority authority defaultPort = .ok (host, port)) :
    (∃ digits, authority = host ++ ':' :: digits ∧ ∀ c ∈ digits, Str.isAsciiDigit c = true) ∨
      host = authority := by
  rw [splitAuthority] at h
  split at h
  · next before digits hsplit =>
    split at h
    · next hdigits =>
      rw [Result.bind_eq_ok] at h
      obtain ⟨number, -, h⟩ := h
      obtain ⟨rfl, -⟩ := Prod.mk.inj (Except.ok.inj h)
      exact .inl ⟨digits, Str.rsplitOnce_spec hsplit, List.all_eq_true.mp hdigits.2⟩
    · exact .inr (Prod.mk.inj (Except.ok.inj h)).1.symm
  · exact .inr (Prod.mk.inj (Except.ok.inj h)).1.symm

theorem splitAuthority_subset {authority host : Text} {defaultPort port : UInt16}
    (h : splitAuthority authority defaultPort = .ok (host, port)) : ∀ c ∈ host, c ∈ authority := by
  intro c hc
  rcases splitAuthority_cases h with ⟨digits, rfl, -⟩ | rfl
  · exact List.mem_append_left _ hc
  · exact hc

theorem parseBracketed_subset {rest host : Text} {defaultPort port : UInt16}
    (h : parseBracketed rest defaultPort = .ok (host, port)) : ∀ c ∈ host, c ∈ rest := by
  rw [parseBracketed, Result.bind_eq_ok] at h
  obtain ⟨⟨inside, after⟩, hsplit, h⟩ := h
  rw [context_eq_ok] at hsplit
  obtain ⟨rfl, -⟩ := Str.splitOnce_char hsplit
  dsimp only at h
  -- the host is what stands inside the brackets, with a port behind them or without
  have hinside : host = inside := by
    split at h
    · exact (Prod.mk.inj (Except.ok.inj h)).1.symm
    · rw [Result.bind_eq_ok] at h
      obtain ⟨digits, -, h⟩ := h
      rw [Result.bind_eq_ok] at h
      obtain ⟨number, -, h⟩ := h
      exact (Prod.mk.inj (Except.ok.inj h)).1.symm
  intro c hc
  exact List.mem_append_left _ (hinside ▸ hc)

/-- The host is made of characters of the authority. -/
theorem parseAuthority_subset {authority host : Text} {defaultPort port : UInt16}
    (h : parseAuthority authority defaultPort = .ok (host, port)) : ∀ c ∈ host, c ∈ authority := by
  rw [parseAuthority] at h
  split at h
  · cases h
  · split at h
    · next rest hstrip =>
      intro c hc
      rw [Str.stripPrefix_eq_some.mp hstrip]
      exact List.mem_cons_of_mem _ (parseBracketed_subset h c hc)
    · rw [Result.bind_eq_ok] at h
      obtain ⟨⟨host', port'⟩, hsplit, h⟩ := h
      dsimp only at h
      split at h
      · cases h
      · obtain ⟨rfl, -⟩ := Prod.mk.inj (Except.ok.inj h)
        exact splitAuthority_subset hsplit

/-- The cut of `parse_absolute_uri` behind the authority. -/
def cutPath (rest : Text) : Text × Text :=
  match Str.find '/' rest with
  | some idx => (rest.take idx, rest.drop idx)
  | none => (rest, ['/'])

/-- What `parse_absolute_uri` reads. -/
theorem parseAbsoluteUri_eq_ok {target : Text} {absolute : AbsoluteUri} :
    parseAbsoluteUri target = .ok absolute ↔
      ∃ scheme rest host port, Str.splitOnce "://".toList target = some (scheme, rest) ∧
        Str.eqIgnoreAsciiCase scheme "http".toList = true ∧
        parseAuthority (cutPath rest).1 80 = .ok (host, port) ∧
        absolute = ⟨scheme.map Str.toAsciiLower, host, some port, (cutPath rest).2⟩ := by
  rw [parseAbsoluteUri, Result.bind_eq_ok]
  constructor
  · rintro ⟨⟨scheme, rest⟩, hsplit, h⟩
    rw [context_eq_ok] at hsplit
    dsimp only at h
    split at h
    · cases h
    · next hhttp =>
      rw [Result.bind_eq_ok] at h
      obtain ⟨⟨host, port⟩, hauthority, h⟩ := h
      obtain rfl := Except.ok.inj h
      exact ⟨scheme, rest, host, port, hsplit, by simpa using hhttp, hauthority, rfl⟩
  · rintro ⟨scheme, rest, host, port, hsplit, hhttp, hauthority, rfl⟩
    refine ⟨(scheme, rest), context_eq_ok.mpr hsplit, ?_⟩
    dsimp only
    rw [hhttp, if_neg Bool.false_ne_true.symm, Result.bind_eq_ok]
    exact ⟨(host, port), hauthority, rfl⟩

/-- The path and the host of a target that is one word are words, but for a host
    that is empty in its brackets. -/
theorem words_of_parseAbsoluteUri {target : Text} {uri : AbsoluteUri}
    (htarget : IsWord target) (h : parseAbsoluteUri target = .ok uri) :
    IsWord uri.path ∧ ∀ c ∈ uri.host, Str.isWhitespace c = false := by
  obtain ⟨scheme, rest, host, port, hsplit, -, hauthority, rfl⟩ := parseAbsoluteUri_eq_ok.mp h
  -- the rest is a part of the target, which has no white space
  have hrest : ∀ c ∈ rest, Str.isWhitespace c = false := by
    intro c hc
    apply htarget.2
    rw [Str.splitOnce_spec hsplit]
    exact List.mem_append_right _ hc
  obtain ⟨hpath, hbefore⟩ : IsWord (cutPath rest).2 ∧
      ∀ c ∈ (cutPath rest).1, Str.isWhitespace c = false := by
    rw [cutPath]
    split
    · next idx hfind =>
      have hidx : idx < rest.length := by
        rw [Str.find, List.findIdx?_eq_some_iff_getElem] at hfind
        exact hfind.1
      refine ⟨⟨?_, fun c hc => hrest c (List.mem_of_mem_drop hc)⟩,
        fun c hc => hrest c (List.mem_of_mem_take hc)⟩
      rw [Ne, List.drop_eq_nil_iff]
      omega
    · exact ⟨⟨List.cons_ne_nil _ _, List.all_iff_forall_prop.mp rfl⟩, hrest⟩
  exact ⟨hpath, fun c hc => hbefore c (parseAuthority_subset hauthority c hc)⟩

theorem noWhitespace_of_isDigit {c : Char} (h : c.isDigit = true) : Str.isWhitespace c = false := by
  have hrange : 48 ≤ c.toNat ∧ c.toNat ≤ 57 := by
    simpa [Char.isDigit, UInt32.le_iff_toNat_le] using h
  simp only [Str.isWhitespace, Bool.or_eq_false_iff, Bool.and_eq_false_iff, decide_eq_false_iff_not,
    beq_eq_false_iff_ne]
  omega

theorem hostValue_noWhitespace {uri : AbsoluteUri}
    (h : ∀ c ∈ uri.host, Str.isWhitespace c = false) :
    ∀ c ∈ hostValue uri, Str.isWhitespace c = false := by
  rw [hostValue]
  split
  · exact h
  · split
    · exact h
    · intro c hc
      rcases List.mem_append.mp hc with hhost | hport
      · exact h c hhost
      · rcases List.mem_cons.mp hport with rfl | hdigit
        · decide
        · rw [Nat.toString_eq_repr, Nat.toList_repr] at hdigit
          exact noWhitespace_of_isDigit (Nat.isDigit_of_mem_toDigits (by decide) (by decide) hdigit)

/-! ## Rewriting -/

theorem rewritten_parsed {request : RequestParts} {uri : AbsoluteUri}
    (hrequest : RequestParsed request) (huri : parseAbsoluteUri request.target = .ok uri) :
    RequestParsed (rewritten request uri) := by
  obtain ⟨hpath, hhost⟩ := words_of_parseAbsoluteUri hrequest.target huri
  have hvalue := hostValue_noWhitespace hhost
  refine ⟨hrequest.method, hpath, hrequest.version, hrequest.http, fun header hmem => ?_⟩
  rcases List.mem_append.mp hmem with hkept | hadded
  · exact hrequest.headers header (List.mem_filter.mp hkept).1
  · split at hadded
    · cases hadded
    · obtain rfl := List.mem_singleton.mp hadded
      have hname : ∀ c ∈ "Host".toList, Str.isWhitespace c = false :=
        List.all_iff_forall_prop.mp rfl
      exact {
        colon := show ':' ∉ "Host".toList by decide
        name := Str.trim_eq_self hname
        value := Str.trim_eq_self hvalue
        name_unbroken := unbroken_of_noWhitespace hname
        value_unbroken := unbroken_of_noWhitespace hvalue }

/-- `Host` is not among the headers that are removed. -/
theorem any_host_kept (headers : List (Text × Text)) :
    (keptHeaders headers).any (fun header => Str.eqIgnoreAsciiCase header.1 "Host".toList) =
      headers.any fun header => Str.eqIgnoreAsciiCase header.1 "Host".toList := by
  rw [keptHeaders, List.any_filter]
  congr 1
  funext header
  cases hhost : Str.eqIgnoreAsciiCase header.1 "Host".toList with
  | false => rw [Bool.and_false]
  | true =>
    have hlower : header.1.map Str.toAsciiLower = "Host".toList.map Str.toAsciiLower :=
      eq_of_beq hhost
    have hproxy : isProxyHeader header.1 = false := by
      rw [isProxyHeader, Str.eqIgnoreAsciiCase, Str.eqIgnoreAsciiCase, hlower]
      decide
    rw [hproxy]
    rfl

theorem render_eq (request : RequestParts) :
    render request = requestLine request ++ "\r\n".toList ++
      request.headers.flatMap headerLine ++ "\r\n".toList := by
  have hline : ∀ header, headerLine header = headerText header ++ ['\r', '\n'] := by
    intro header
    simp [headerLine, headerText]
  rw [render, headLines, List.cons_append, Lines.join_cons, Lines.join_append, Lines.join,
    List.flatMap_map, List.flatMap_congr fun header _ => (hline header).symm]
  simp

theorem rewritten_headers (request : RequestParts) (uri : AbsoluteUri) :
    (rewritten request uri).headers = keptHeaders request.headers ++
      if request.headers.any fun header => Str.eqIgnoreAsciiCase header.1 "Host".toList then []
      else [("Host".toList, hostValue uri)] := rfl

/-- A header of the rewritten request is not for the proxy. -/
theorem not_proxyHeader_of_rewritten {request : RequestParts} {uri : AbsoluteUri}
    {header : Text × Text} (h : header ∈ (rewritten request uri).headers) :
    isProxyHeader header.1 = false := by
  rw [rewritten_headers] at h
  rcases List.mem_append.mp h with hkept | hadded
  · exact Bool.not_eq_true' _ |>.mp (List.mem_filter.mp hkept).2
  · split at hadded
    · cases hadded
    · rw [List.mem_singleton.mp hadded]
      show isProxyHeader "Host".toList = false
      decide

/-- **Rewriting renders the request that is meant.** -/
theorem rewriteAbsoluteRequest_eq_render (request : RequestParts) (uri : AbsoluteUri) :
    rewriteAbsoluteRequest request uri = render (rewritten request uri) := by
  have hheaders : (rewritten request uri).headers.flatMap headerLine =
      (keptHeaders request.headers).flatMap headerLine ++
        if (keptHeaders request.headers).any fun header =>
          Str.eqIgnoreAsciiCase header.1 "Host".toList then []
        else headerLine ("Host".toList, hostValue uri) := by
    rw [any_host_kept, rewritten_headers, List.flatMap_append]
    split
    · rfl
    · rw [List.flatMap_singleton]
  rw [render_eq, hheaders, rewriteAbsoluteRequest]
  simp [requestLine, rewritten]

/-- The bytes `out` say what the request says, to the origin server. -/
structure Preserved (request : RequestParts) (uri : AbsoluteUri) (out : Bytes) : Prop where
  parsed : parseRequest out = .ok (rewritten request uri)
  ended : ∃ head, out = head ++ endOfHead
  once : ∀ before after, out = before ++ (endOfHead ++ after) → after = []

/-- **Rewriting an absolute-form request preserves it**, whatever head was accepted:
    the rewritten head is accepted, has the same fields but for those of the
    proxy, and ends with its only empty line. -/
theorem rewrite_preserves {header : Bytes} {request : RequestParts} {uri : AbsoluteUri}
    (hrequest : parseRequest header = .ok request)
    (huri : parseAbsoluteUri request.target = .ok uri) :
    Preserved request uri (Text.asBytes (rewriteAbsoluteRequest request uri)) := by
  have hparsed := rewritten_parsed (parsed_of_parseRequest hrequest) huri
  rw [rewriteAbsoluteRequest_eq_render]
  exact {
    parsed := parseRequest_render hparsed
    ended := (render_end hparsed).1
    once := (render_end hparsed).2 }

/-! ## A request -/

theorem exampleCredentials_parsed : HeaderParsed exampleCredentials := by
  have hnewline : ∀ t : Text, '\n' ∉ t → Unbroken t := fun _ h => Lines.unbroken_of_not_mem h
  exact {
    colon := by decide
    name := by decide
    value := by decide
    name_unbroken := hnewline _ (by decide)
    value_unbroken := hnewline _ (by decide) }

/-- A request with credentials, a field without a value and a lone line feed. -/
def exampleRequest : RequestParts where
  method := "GET".toList
  target := "http://a.example:81/x".toList
  version := "HTTP/1.1".toList
  headers := [("proxy-authorization".toList, "Basic YTpi".toList),
    ("Accept".toList, []), ("X".toList, "1\n2".toList)]

theorem exampleRequest_parsed : RequestParsed exampleRequest where
  method := ⟨by decide, List.all_iff_forall_prop.mp rfl⟩
  target := ⟨by decide, List.all_iff_forall_prop.mp rfl⟩
  version := ⟨by decide, List.all_iff_forall_prop.mp rfl⟩
  http := by decide
  headers := by
    have hunbroken : ∀ header ∈ exampleRequest.headers, Unbroken header.1 ∧ Unbroken header.2 := by
      unfold Unbroken Lines.Unbroken
      decide
    have hfields : ∀ header ∈ exampleRequest.headers, ':' ∉ header.1 ∧
        Str.trim header.1 = header.1 ∧ Str.trim header.2 = header.2 := by decide
    intro header hmem
    obtain ⟨hcolon, hname, hvalue⟩ := hfields header hmem
    obtain ⟨hunbroken₁, hunbroken₂⟩ := hunbroken header hmem
    exact ⟨hcolon, hname, hvalue, hunbroken₁, hunbroken₂⟩

def exampleUri : AbsoluteUri := ⟨"http".toList, "a.example".toList, some 81, "/x".toList⟩

/-- What the origin server gets of it. -/
def exampleRewritten : Text :=
  "GET /x HTTP/1.1\r\nAccept: \r\nX: 1\n2\r\nHost: a.example:81\r\n\r\n".toList

theorem rewrite_preserves_example :
    Preserved exampleRequest exampleUri (Text.asBytes exampleRewritten) := by
  have hrequest := parseRequest_render exampleRequest_parsed
  have huri : parseAbsoluteUri exampleRequest.target = .ok exampleUri := by decide
  have hpreserved := rewrite_preserves hrequest huri
  exact hpreserved

end Http

end EchProxy
