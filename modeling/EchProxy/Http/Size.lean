import EchProxy.Http.HostHeader
import EchProxy.Tunnel.Encoding

/-! # The Size of a Rewritten Request

    How many bytes of the head each part of a request takes, and how many it
    takes after rewriting: the host can appear twice, and a header line grows.
-/

namespace EchProxy

namespace Http

open Checked

/-! ## The request line -/

/-- The pieces and the white space between them are in the text. -/
theorem len_splitOnP_le (p : Char → Bool) (s : Text) :
    Text.len (s.splitOnP p).flatten + (s.splitOnP p).length ≤ Text.len s + 1 := by
  induction s with
  | nil => simp
  | cons x s ih =>
    rw [List.splitOnP_cons_eq_if_modifyHead, Text.len_cons]
    by_cases hx : p x = true
    · have hpos := x.utf8Size_pos
      rw [if_pos hx, List.flatten_cons, List.nil_append, List.length_cons]
      omega
    · rw [if_neg hx]
      cases hsplit : s.splitOnP p with
      | nil => exact absurd hsplit (List.splitOnP_ne_nil _ _)
      | cons first pieces =>
        rw [hsplit, List.flatten_cons, Text.len_append, List.length_cons] at ih
        rw [List.modifyHead_cons, List.flatten_cons, Text.len_append, Text.len_cons,
          List.length_cons]
        omega

/-- Leaving pieces out leaves less. -/
theorem len_filter_le (p : Text → Bool) (pieces : List Text) :
    Text.len (pieces.filter p).flatten + (pieces.filter p).length ≤
      Text.len pieces.flatten + pieces.length := by
  induction pieces with
  | nil => exact Nat.le_refl _
  | cons piece pieces ih =>
    rw [List.flatten_cons, Text.len_append, List.length_cons]
    by_cases hp : p piece = true
    · rw [List.filter_cons_of_pos hp, List.flatten_cons, Text.len_append, List.length_cons]
      omega
    · rw [List.filter_cons_of_neg hp]
      omega

/-- Three words and what separates them. -/
theorem len_of_parseRequestLine {line method target version : Text}
    (h : parseRequestLine line = .ok (method, target, version)) :
    Text.len method + Text.len target + Text.len version + 2 ≤ Text.len line := by
  have hwords := (parseRequestLine_spec h).1
  have hpieces := len_splitOnP_le Str.isWhitespace line
  have hfilter := len_filter_le (fun piece => !piece.isEmpty) (line.splitOnP Str.isWhitespace)
  rw [← Str.splitWhitespace, hwords] at hfilter
  simp only [List.flatten_cons, List.flatten_nil, Text.len_append, Text.len_nil,
    List.length_cons, List.length_nil] at hfilter
  omega

/-! ## The header lines -/

/-- A header line grows by one byte at most. -/
theorem len_headerLine (header : Text × Text) :
    Text.len (headerLine header) = Text.len header.1 + Text.len header.2 + 4 := by
  have hmark : Text.len ": ".toList = 2 := rfl
  have hend : Text.len "\r\n".toList = 2 := rfl
  rw [headerLine, Text.len_append, Text.len_append, Text.len_append, hmark, hend]
  omega

/-- A line has the name, the colon and the value. -/
theorem len_of_parseHeader {line : Text} {header : Text × Text}
    (h : parseHeader line = .ok header) :
    Text.len header.1 + Text.len header.2 + 1 ≤ Text.len line := by
  obtain ⟨name, value, rfl, -, rfl⟩ := parseHeader_spec h
  have hname := Text.len_le_of_infix (Str.trim_infix name)
  have hvalue := Text.len_le_of_infix (Str.trim_infix value)
  have hcolon : ':'.utf8Size = 1 := rfl
  rw [Text.len_append, Text.len_cons, hcolon]
  dsimp only
  omega

/-- So all together they at most double. -/
theorem len_of_parseHeaders {lines : List Text} {headers : List (Text × Text)}
    (h : parseHeaders lines = .ok headers) :
    Text.len (headers.flatMap headerLine) ≤ 2 * Text.len (Lines.join '\r' '\n' lines) := by
  have hspec := parseHeaders_spec h
  clear h
  induction hspec with
  | nil => exact Nat.zero_le _
  | cons hfirst _ ih =>
    have hline := len_of_parseHeader hfirst
    have hcr : '\r'.utf8Size = 1 := rfl
    have hlf : '\n'.utf8Size = 1 := rfl
    rw [List.flatMap_cons, Text.len_append, len_headerLine, Lines.join_cons, Text.len_append,
      Text.len_cons, Text.len_cons, hcr, hlf]
    omega

/-- What is dropped takes no space. -/
theorem len_lines_filter_le (p : Text × Text → Bool) (headers : List (Text × Text)) :
    Text.len ((headers.filter p).flatMap headerLine) ≤ Text.len (headers.flatMap headerLine) := by
  induction headers with
  | nil => exact Nat.le_refl _
  | cons header headers ih =>
    rw [List.flatMap_cons, Text.len_append]
    by_cases hp : p header = true
    · rw [List.filter_cons_of_pos hp, List.flatMap_cons, Text.len_append]
      omega
    · rw [List.filter_cons_of_neg hp]
      omega

/-- **A head** holds its request line and its headers: `headers` bounds what they
    take after rewriting. -/
theorem len_of_parseRequest {header : Bytes} {request : RequestParts}
    (h : parseRequest header = .ok request) :
    ∃ headers, Text.len (request.headers.flatMap headerLine) ≤ 2 * headers ∧
      Text.len request.method + Text.len request.target + Text.len request.version + headers + 6 ≤
        header.length := by
  obtain ⟨head, line, lines, hbytes, hsplit, hwords, hheaders⟩ := parseRequest_spec h
  refine ⟨_, len_of_parseHeaders hheaders, ?_⟩
  have hline := len_of_parseRequestLine hwords
  -- the lines of the head, with their ends, are the head and one end more
  have hjoin : Lines.join '\r' '\n' (Lines.split '\r' '\n' head) = head ++ ['\r', '\n'] :=
    Lines.join_split head
  rw [hsplit, Lines.join_cons] at hjoin
  have hall := congrArg Text.len hjoin
  have hcr : '\r'.utf8Size = 1 := rfl
  have hlf : '\n'.utf8Size = 1 := rfl
  have hend : Text.len ['\r', '\n', '\r', '\n'] = 4 := rfl
  have hbreak : Text.len ['\r', '\n'] = 2 := rfl
  have htotal : header.length = Text.len head + 4 := by
    rw [← hbytes, ← hend, ← Text.len_append]
    rfl
  rw [Text.len_append, Text.len_append, Text.len_cons, Text.len_cons, hcr, hlf, hbreak] at hall
  omega

/-! ## The target -/

section uri
variable {authority host : Text} {port : UInt16}

/-- ASCII text takes a byte a character. -/
theorem len_of_ascii {t : Text} (h : ∀ c ∈ t, c.toNat < 0x80) : Text.len t = t.length := by
  induction t with
  | nil => rfl
  | cons c t ih =>
    have hone : c.utf8Size = 1 := by
      rw [← String.length_utf8EncodeChar, Text.asBytes_ascii (h c List.mem_cons_self)]
      rfl
    rw [Text.len_cons, hone, ih fun d hd => h d (List.mem_cons_of_mem _ hd), List.length_cons]
    omega

/-- A port is not written longer than it was read. -/
theorem len_port_le {digits : Text} (hdigits : Str.IsDigits digits)
    (hvalue : Str.decimal digits = port.toNat) :
    Text.len (toString port.toNat).toList ≤ Text.len digits := by
  have hascii : ∀ c ∈ (toString port.toNat).toList, c.toNat < 0x80 := by
    intro c hc
    have hdigit := (isDigits_port port).1.2 c hc
    rw [Str.isAsciiDigit, Bool.and_eq_true, decide_eq_true_eq, decide_eq_true_eq] at hdigit
    omega
  have hdecimal := Str.length_toDigits_decimal_le hdigits
  rw [hvalue, ← Nat.toList_repr, ← Nat.toString_eq_repr] at hdecimal
  have hbytes := Text.length_le_len digits
  rw [len_of_ascii hascii]
  omega

/-- A port takes three bytes. -/
theorem length_varint_port (port : UInt16) : (Protobuf.varint port.toNat).length ≤ 3 := by
  have hlt := port.toNat_lt
  have hpow : 128 ^ 3 = 2097152 := rfl
  exact Protobuf.length_varint_le (by omega) (by omega)

/-- What a request says about its target: the host once as such and once in a
    `Host`, and the port. -/
def targetSize (host : Text) (port : UInt16) : Nat :=
  Text.len host + Text.len (if port = 80 then host else withPort host port)
    + (Protobuf.varint port.toNat).length

theorem targetSize_default (host : Text) : targetSize host 80 = 2 * Text.len host + 1 := by
  have hone : (Protobuf.varint (80 : UInt16).toNat).length = 1 := by decide
  rw [targetSize, if_pos rfl, hone]
  omega

/-- With a port the digits pay for what is added. -/
theorem targetSize_le (host : Text) {digits : Text} (hdigits : Str.IsDigits digits)
    (hvalue : Str.decimal digits = port.toNat) :
    targetSize host port ≤ 2 * Text.len host + 2 * Text.len digits + 3 := by
  have hport := len_port_le hdigits hvalue
  have hvarint := length_varint_port port
  have hpos := List.length_pos_iff.mpr hdigits.1
  have hbytes := Text.length_le_len digits
  have hcolon : ':'.utf8Size = 1 := rfl
  rw [targetSize]
  split
  · omega
  · rw [withPort, Text.len_append, Text.len_cons, hcolon]
    omega

/-- **The target is in the authority**, and takes twice its size at most. -/
theorem targetSize_of_parseAuthority (h : parseAuthority authority 80 = .ok (host, port)) :
    targetSize host port ≤ 2 * Text.len authority + 1 := by
  have hcolon : ':'.utf8Size = 1 := rfl
  have hopen : '['.utf8Size = 1 := rfl
  have hclose : ']'.utf8Size = 1 := rfl
  cases (parseAuthority_eq_ok.mp h).2 with
  | bracketed rest hbracket hread =>
    obtain ⟨after, rfl, -, ⟨rfl, rfl⟩ | ⟨number, rfl, hnumber⟩⟩ := parseBracketed_eq_ok.mp hread
    · rw [hbracket, targetSize_default, Text.len_cons, Text.len_append]
      omega
    · obtain ⟨digits, hform, hdigits, hvalue⟩ := parseU16_eq_ok.mp hnumber
      have hsize := targetSize_le host hdigits hvalue
      -- there may be a sign before the digits
      have hwritten : Text.len digits ≤ Text.len number := by
        rcases hform with rfl | rfl
        · exact Nat.le_refl _
        · rw [Text.len_cons]
          omega
      rw [hbracket, Text.len_cons, Text.len_append, Text.len_cons, Text.len_cons, hcolon, hopen,
        hclose]
      omega
  | plain hbracket hread hhost hport hspace =>
    rcases splitAuthority_eq_ok.mp hread with ⟨digits, rfl, hdigits, hvalue⟩ | ⟨rfl, rfl, -⟩
    · have hsize := targetSize_le host hdigits hvalue
      rw [Text.len_append, Text.len_cons, hcolon]
      omega
    · rw [targetSize_default]

/-- The host of an authority is a part of it. -/
theorem len_host_le {defaultPort : UInt16} (h : parseAuthority authority defaultPort = .ok (host, port)) :
    Text.len host ≤ Text.len authority := by
  cases (parseAuthority_eq_ok.mp h).2 with
  | bracketed rest hbracket hread =>
    obtain ⟨after, rfl, -⟩ := parseBracketed_eq_ok.mp hread
    rw [hbracket, Text.len_cons, Text.len_append]
    omega
  | plain hbracket hread hhost hport hspace =>
    rcases splitAuthority_eq_ok.mp hread with ⟨digits, rfl, -⟩ | ⟨rfl, -⟩
    · rw [Text.len_append]
      omega
    · exact Nat.le_refl _

/-- Where the path is cut off, it is at most a slash longer than what was there. -/
theorem len_cutPath_le (rest : Text) :
    Text.len (cutPath rest).1 + Text.len (cutPath rest).2 ≤ Text.len rest + 1 := by
  have hslash : Text.len ['/'] = 1 := rfl
  rw [cutPath]
  cases Str.find '/' rest with
  | none =>
    dsimp only
    omega
  | some idx =>
    dsimp only
    rw [← Text.len_append, List.take_append_drop]
    omega

end uri

/-! ## The rewritten head -/

theorem len_pos {t : Text} (h : t ≠ []) : 1 ≤ Text.len t := by
  have hbytes := Text.length_le_len t
  have hpos := List.length_pos_iff.mpr h
  omega

/-- In any letter case the scheme has four letters. -/
theorem len_scheme {scheme : Text} (h : Str.eqIgnoreAsciiCase scheme "http".toList = true) :
    4 ≤ Text.len scheme := by
  rw [Str.eqIgnoreAsciiCase, beq_iff_eq] at h
  have hlength := congrArg List.length h
  rw [List.length_map, List.length_map] at hlength
  have hfour : "http".toList.length = 4 := rfl
  have hbytes := Text.length_le_len scheme
  omega

theorem len_version {version : Text} (h : Str.startsWith "HTTP/".toList version = true) :
    5 ≤ Text.len version := by
  have hmark : Text.len "HTTP/".toList = 5 := rfl
  have hprefix : "HTTP/".toList <+: version := List.isPrefixOf_iff_prefix.mp h
  have hpart := Text.len_le_of_infix hprefix.isInfix
  omega

/-- What a rewritten request takes, with its target. -/
theorem len_rewriteAbsoluteRequest_le (request : RequestParts) (uri : AbsoluteUri) {port : UInt16}
    (hport : uri.port = some port) :
    Text.len (rewriteAbsoluteRequest request uri) + Text.len uri.host
        + (Protobuf.varint port.toNat).length ≤
      Text.len request.method + Text.len uri.path + Text.len request.version
        + Text.len (request.headers.flatMap headerLine) + targetSize uri.host port + 14 := by
  have hkept := len_lines_filter_le (fun header => !isProxyHeader header.1) request.headers
  have hspace : ' '.utf8Size = 1 := rfl
  have hend : Text.len "\r\n".toList = 2 := rfl
  have hname : Text.len "Host".toList = 4 := rfl
  have hhost := len_headerLine ("Host".toList, hostValue uri)
  have hvalue := hostValue_eq hport
  rw [rewriteAbsoluteRequest]
  rw [← keptHeaders] at hkept
  simp only [Text.len_append, Text.len_cons, hspace, hend]
  rw [targetSize, ← hvalue]
  split
  · rw [Text.len_nil]
    omega
  · dsimp only at hhost
    omega

/-- **A request that is read and rewritten** fits into one frame, with its target. -/
theorem rewritten_fits {header : Bytes} {request : RequestParts} {uri : AbsoluteUri} {port : UInt16}
    (hsize : header.length ≤ maxHeaderSize) (hrequest : parseRequest header = .ok request)
    (huri : parseAbsoluteUri request.target = .ok uri) (hport : uri.port = some port) :
    (openFrame ⟨uri.host, port.toUInt32,
      Text.asBytes (rewriteAbsoluteRequest request uri)⟩).Fits := by
  have hmax : maxMessageSize = 131072 := rfl
  have hhead : maxHeaderSize = 65536 := rfl
  have hparsed := parsed_of_parseRequest hrequest
  obtain ⟨headers, hheaders, hparts⟩ := len_of_parseRequest hrequest
  obtain ⟨scheme, rest, host, port', hsplit, hhttp, hauthority, hread⟩ :=
    parseAbsoluteUri_eq_ok.mp huri
  have hhost : uri.host = host := by rw [hread]
  have htail : uri.path = (cutPath rest).2 := by rw [hread]
  obtain rfl : port' = port := by
    rw [hread] at hport
    exact Option.some.inj hport
  have hrewritten := len_rewriteAbsoluteRequest_le request uri hport
  have htarget := targetSize_of_parseAuthority hauthority
  have hcut := len_cutPath_le rest
  have hpath := len_pos (words_of_parseAbsoluteUri hparsed.target huri).1.1
  -- "http" and "://" are not sent, nor is the method empty, nor the version
  have hscheme := len_scheme hhttp
  have hmark : Text.len "://".toList = 3 := rfl
  have hform := congrArg Text.len (Str.splitOnce_spec hsplit)
  rw [Text.len_append, Text.len_append, hmark] at hform
  have hmethod := len_pos hparsed.method.1
  have hversion := len_version hparsed.http
  have hpayload : (Text.asBytes (rewriteAbsoluteRequest request uri)).length =
    Text.len (rewriteAbsoluteRequest request uri) := rfl
  rw [hhost, htail] at hrewritten
  rw [htail] at hpath
  apply openFrame_fits
  dsimp only
  rw [UInt16.toNat_toUInt32, hpayload, hhost]
  omega

end Http

end EchProxy
