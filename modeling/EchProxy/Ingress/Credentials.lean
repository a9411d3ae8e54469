import EchProxy.Framework.Base64
import EchProxy.Http.Handle
import EchProxy.Http.Rewrite
import EchProxy.Socks.Encoding

/-! # Credentials on Both Ingresses

    An HTTP client sends its name and its password in one header, with a colon
    in between and in base64; a SOCKS5 client sends two byte strings behind
    their lengths.  The two ways are read back to the same texts, so that the
    ingresses let in the same clients as the same users.
-/

namespace EchProxy

open Checked Traced Reader

/-! ## The header of an HTTP client -/

namespace Http

/-- A header line, with whatever white space it has. -/
structure HeaderField where
  name : Text
  value : Text
  colon : ':' ∉ name
  unbroken : Unbroken (name ++ ':' :: value)

namespace HeaderField

def line (field : HeaderField) : Text := field.name ++ ':' :: field.value

/-- The header that is read. -/
def parsed (field : HeaderField) : Text × Text := (Str.trim field.name, Str.trim field.value)

theorem parseHeader_line (field : HeaderField) : parseHeader field.line = .ok field.parsed := by
  rw [parseHeader, line, Str.splitOnce_cons field.colon]
  rfl

theorem parseHeaders_lines (fields : List HeaderField) :
    parseHeaders (fields.map line) = .ok (fields.map parsed) := by
  induction fields with
  | nil => rfl
  | cons field fields ih =>
    rw [List.map_cons, parseHeaders, parseHeader_line, Result.ok_bind, ih]
    rfl

end HeaderField

/-- What the Basic scheme encodes. -/
def basicPayload (credentials : Socks.Credentials) : Text :=
  credentials.username ++ ':' :: credentials.password

/-- The value of the header. -/
def basicValue (credentials : Socks.Credentials) : Text :=
  "Basic ".toList ++ Base64.encode (Text.asBytes (basicPayload credentials))

theorem basicValue_eq (credentials : Socks.Credentials) : basicValue credentials =
    "Basic ".toList ++ Base64.encode (Text.asBytes (basicPayload credentials)) := rfl

/-- A request with the header among others: its name in any letter case, and white
    space around its name and its value. -/
structure BasicRequest (credentials : Socks.Credentials) where
  requestLine : Text
  method : Text
  target : Text
  version : Text
  words : Str.splitWhitespace requestLine = [method, target, version]
  http : Str.startsWith "HTTP/".toList version = true
  requestLine_unbroken : Unbroken requestLine
  before : List HeaderField
  before_other : ∀ field ∈ before,
    Str.eqIgnoreAsciiCase (Str.trim field.name) proxyAuthorization = false
  name : Text
  name_case : Str.eqIgnoreAsciiCase name proxyAuthorization = true
  nameLeft : Text
  nameRight : Text
  valueLeft : Text
  valueRight : Text
  white : ∀ t ∈ [nameLeft, nameRight, valueLeft, valueRight], ∀ c ∈ t, Str.isWhitespace c = true
  unbroken : Unbroken
    (nameLeft ++ name ++ nameRight ++ ':' :: (valueLeft ++ basicValue credentials ++ valueRight))
  after : List HeaderField

/-- In any letter case the header's name has no colon and no white space. -/
theorem name_spelled {name : Text} (h : Str.eqIgnoreAsciiCase name proxyAuthorization = true) :
    ':' ∉ name ∧ ∀ c ∈ name, Str.isWhitespace c = false := by
  have hspelled : ∀ d ∈ proxyAuthorization,
      (Str.toAsciiLower d != ':' && !Str.isWhitespace (Str.toAsciiLower d)) = true :=
    List.all_iff_forall_prop.mp rfl
  constructor
  · intro hmem
    obtain ⟨d, hd, hlower⟩ := Str.exists_of_eqIgnoreAsciiCase h hmem
    have hspell := hspelled d hd
    rw [hlower] at hspell
    cases hspell
  · intro c hc
    obtain ⟨d, hd, hlower⟩ := Str.exists_of_eqIgnoreAsciiCase h hc
    have hspell := hspelled d hd
    rw [hlower, Bool.and_eq_true, Bool.not_eq_true'] at hspell
    by_contra hwhite
    rw [Bool.not_eq_false] at hwhite
    rw [Str.toAsciiLower_of_whitespace hwhite, hwhite] at hspell
    cases hspell.2

/-- Neither has the base64 of anything. -/
theorem encode_noWhitespace (bytes : Bytes) :
    ∀ c ∈ Base64.encode bytes, Str.isWhitespace c = false := by
  have hdigits : ∀ c ∈ '=' :: Base64.alphabet, (!Str.isWhitespace c) = true :=
    List.all_iff_forall_prop.mp rfl
  intro c hc
  have hdigit := hdigits c (Base64.encode_subset bytes hc)
  rwa [Bool.not_eq_true'] at hdigit

theorem basicValue_trimmed (credentials : Socks.Credentials) :
    Str.trim (basicValue credentials) = basicValue credentials := by
  -- the scheme begins with a letter, and behind it comes a digit at least
  have hsome : Text.asBytes (basicPayload credentials) ≠ [] := by
    intro hnil
    have hlen := Text.length_le_len (basicPayload credentials)
    rw [Text.len, hnil, basicPayload, List.length_append, List.length_cons, List.length_nil] at hlen
    omega
  apply Str.trim_of_ends
  · intro c hc
    obtain rfl : 'B' = c := Option.some.inj hc
    rfl
  · intro c hc
    rw [basicValue_eq, List.getLast?_append_of_ne_nil _ (Base64.encode_ne_nil hsome)] at hc
    exact encode_noWhitespace _ c (List.mem_of_getLast? hc)

namespace BasicRequest

variable {credentials : Socks.Credentials}

/-- The header with the credentials. -/
def field (request : BasicRequest credentials) : HeaderField where
  name := request.nameLeft ++ request.name ++ request.nameRight
  value := request.valueLeft ++ basicValue credentials ++ request.valueRight
  colon := by
    have hwhite : ∀ t ∈ [request.nameLeft, request.nameRight], ':' ∉ t := by
      intro t ht hmem
      have hcolon := request.white t (List.mem_append_left [request.valueLeft, request.valueRight] ht)
        ':' hmem
      cases hcolon
    rw [List.mem_append, List.mem_append, not_or, not_or]
    exact ⟨⟨hwhite _ (by simp), (name_spelled request.name_case).1⟩, hwhite _ (by simp)⟩
  unbroken := request.unbroken

def lines (request : BasicRequest credentials) : List Text :=
  request.requestLine ::
    (request.before ++ request.field :: request.after).map HeaderField.line

/-- The head that `parse_request` is given. -/
def head (request : BasicRequest credentials) : Bytes :=
  Text.asBytes (Lines.join '\r' '\n' (request.lines ++ [[]]))

def parts (request : BasicRequest credentials) : RequestParts where
  method := request.method
  target := request.target
  version := request.version
  headers := (request.before ++ request.field :: request.after).map HeaderField.parsed

theorem field_parsed (request : BasicRequest credentials) :
    request.field.parsed = (request.name, basicValue credentials) := by
  obtain ⟨hnameLeft, hnameRight, hvalueLeft, hvalueRight⟩ :
      (∀ c ∈ request.nameLeft, Str.isWhitespace c = true) ∧
      (∀ c ∈ request.nameRight, Str.isWhitespace c = true) ∧
      (∀ c ∈ request.valueLeft, Str.isWhitespace c = true) ∧
      ∀ c ∈ request.valueRight, Str.isWhitespace c = true := by
    simpa using request.white
  have hname := Str.trim_padded hnameLeft hnameRight request.name
  have hvalue := Str.trim_padded hvalueLeft hvalueRight (basicValue credentials)
  rw [Str.trim_eq_self (name_spelled request.name_case).2] at hname
  rw [basicValue_trimmed] at hvalue
  exact Prod.ext hname hvalue

theorem parseRequest_head (request : BasicRequest credentials) :
    parseRequest request.head = .ok request.parts := by
  have hunbroken : ∀ l ∈ request.lines, Unbroken l := by
    refine List.forall_mem_cons.mpr ⟨request.requestLine_unbroken, ?_⟩
    intro l hl
    obtain ⟨field, -, rfl⟩ := List.mem_map.mp hl
    exact field.unbroken
  exact parseRequest_block hunbroken (parseRequestLine_of_words request.words request.http)
    (HeaderField.parseHeaders_lines _)

/-- The first header of this name is the one with the credentials. -/
theorem findHeader_parts (request : BasicRequest credentials) :
    findHeader proxyAuthorization request.parts.headers = some (basicValue credentials) := by
  have hbefore : (request.before.map HeaderField.parsed).find? (fun header =>
      Str.eqIgnoreAsciiCase header.1 proxyAuthorization) = none := by
    rw [List.find?_eq_none]
    intro header hmem
    obtain ⟨field, hfield, rfl⟩ := List.mem_map.mp hmem
    rw [HeaderField.parsed, request.before_other field hfield]
    exact Bool.false_ne_true
  rw [findHeader, parts, List.map_append, List.map_cons, request.field_parsed, List.find?_append,
    hbefore, Option.none_or, List.find?_cons]
  dsimp only
  rw [request.name_case]
  rfl

end BasicRequest

/-- **What is encoded is what is checked.** -/
theorem authenticate_basic {base64 : Text → Option Bytes} (hbase64 : Base64.Undone base64)
    {credentials : Socks.Credentials} (hcolon : ':' ∉ credentials.username)
    {request : RequestParts} {auth : AuthStore} {user : UserProfile}
    (hvalue : findHeader proxyAuthorization request.headers = some (basicValue credentials)) :
    authenticate base64 request auth = .ok user ↔
      auth.authenticate credentials.username credentials.password = some user := by
  have hsplit : Str.splitOnce [':'] (basicPayload credentials) =
      some (credentials.username, credentials.password) :=
    Str.splitOnce_cons hcolon _
  rw [authenticate_eq hvalue (basicValue_trimmed credentials) (hbase64 _) hsplit]
  exact context_eq_ok

end Http

/-! ## The messages of a SOCKS5 client -/

namespace Socks

variable {Pool : Type}

/-- The two strings are read, and then checked. -/
theorem authenticate_run (client : ClientStream) (auth : AuthStore) (options : Socks5Options)
    (credentials : Credentials) (rest : Bytes) :
    (authenticate client auth authUserPass options : Step Pool UserProfile)
        (credentials.encode ++ rest) =
      (checkCredentials client auth credentials.username credentials.password >>= fun user =>
        pure (user, rest) : Ingress Pool _) := by
  have hencode : credentials.encode ++ rest = [0x01] ++ (encodeString credentials.username ++
      (encodeString credentials.password ++ rest)) := by
    simp [Credentials.encode]
  have husername : Reads (readSocksString client : Step Pool Text) _ [] _ :=
    readText_reads _ credentials.username_fits
  have hpassword : Reads (readSocksString client : Step Pool Text) _ [] _ :=
    readText_reads _ credentials.password_fits
  rw [hencode, authenticate, if_neg (by decide), (readU8_reads 0x01).run_bind,
    if_neg fun h => h rfl, husername.run_bind, hpassword.run_bind]
  rfl

/-- A client that takes the answer is let in iff its credentials are those of a
    profile. -/
theorem authenticate_userPass {client : ClientStream} {auth : AuthStore} {options : Socks5Options}
    {credentials : Credentials} {rest : Bytes} {user : UserProfile}
    (hanswer : client.respond [0x01, 0x00] = .ok ()) :
    ((authenticate client auth authUserPass options : Step Pool UserProfile)
        (credentials.encode ++ rest)).result = .ok (user, rest) ↔
      auth.authenticate credentials.username credentials.password = some user := by
  rw [authenticate_run, checkCredentials]
  cases hauth : auth.authenticate credentials.username credentials.password with
  | none =>
    -- a refusal is an error, whether it can be written or not
    dsimp only
    rw [result_bind, result_bind]
    constructor
    · intro h
      rw [Result.bind_eq_ok] at h
      obtain ⟨_, hbail, -⟩ := h
      rw [Result.bind_eq_ok] at hbail
      obtain ⟨_, -, hbail⟩ := hbail
      cases hbail
    · intro h
      cases h
  | some found =>
    dsimp only
    rw [result_bind, result_bind, writeAll_eq hanswer]
    constructor
    · intro h
      exact congrArg some (Prod.mk.inj (Except.ok.inj h)).1
    · intro h
      rw [Option.some.inj h]
      rfl

end Socks

/-! ## The main result -/

/-- **The two ingresses authenticate alike**: a request that carries credentials is
    let in as a user iff the exchange of the same credentials over SOCKS5 is. -/
theorem credentials_agree {Pool : Type} {base64 : Text → Option Bytes}
    (hbase64 : Base64.Undone base64) (auth : AuthStore) (credentials : Socks.Credentials)
    (hcolon : ':' ∉ credentials.username) (request : Http.BasicRequest credentials)
    (client : ClientStream) (hanswer : client.respond [0x01, 0x00] = .ok ())
    (options : Socks.Socks5Options) (rest : Bytes) (user : UserProfile) :
    (∃ parts, Http.parseRequest request.head = .ok parts ∧
        Http.authenticate base64 parts auth = .ok user) ↔
      ((Socks.authenticate client auth Socks.authUserPass options : Socks.Step Pool UserProfile)
        (credentials.encode ++ rest)).result = .ok (user, rest) := by
  rw [Socks.authenticate_userPass hanswer]
  constructor
  · rintro ⟨parts, hparts, hauth⟩
    rw [request.parseRequest_head] at hparts
    obtain rfl := Except.ok.inj hparts
    exact (Http.authenticate_basic hbase64 hcolon request.findHeader_parts).mp hauth
  · intro hauth
    refine ⟨request.parts, request.parseRequest_head, ?_⟩
    exact (Http.authenticate_basic hbase64 hcolon request.findHeader_parts).mpr hauth

/-! ## A password with a colon -/

/-- A name with a letter beyond ASCII, and a password with a colon and a space. -/
def zoe : Socks.Credentials := ⟨"zoë".toList, "a:b c".toList, by decide +kernel, by decide +kernel⟩

def zoeProfile : UserProfile := ⟨"zoë".toList, "a:b c".toList, "backend".toList⟩

def zoeAuth : AuthStore := ⟨[("zoë".toList, zoeProfile)]⟩

/-- Her request: `pRoXy-AuThOrIzAtIoN`, behind a `Host`. -/
def zoeRequest : Http.BasicRequest zoe where
  requestLine := "CONNECT a.example:443 HTTP/1.1".toList
  method := "CONNECT".toList
  target := "a.example:443".toList
  version := "HTTP/1.1".toList
  words := by decide +kernel
  http := by decide
  requestLine_unbroken := Lines.unbroken_of_not_mem (by decide)
  before := [⟨"Host".toList, " a.example".toList, by decide, Lines.unbroken_of_not_mem (by decide)⟩]
  before_other := by
    intro field hmem
    rw [List.mem_singleton.mp hmem]
    decide
  name := "pRoXy-AuThOrIzAtIoN".toList
  name_case := by decide
  nameLeft := []
  nameRight := [' ']
  valueLeft := ['\t', ' ']
  valueRight := [' ', ' ']
  white := by simp [Str.isWhitespace]
  unbroken := Lines.unbroken_of_not_mem (by decide +kernel)
  after := []

theorem credentials_agree_example :
    ∃ parts, Http.parseRequest zoeRequest.head = .ok parts ∧
      Http.authenticate Base64.decode parts zoeAuth = .ok zoeProfile := by
  let client : ClientStream := ⟨[], none, fun _ => .ok ()⟩
  have hagree := @credentials_agree Nat Base64.decode Base64.decode_undone zoeAuth zoe (by decide)
    zoeRequest client rfl ⟨false, none⟩ [] zoeProfile
  exact hagree.mpr ((Socks.authenticate_userPass rfl).mpr rfl)

end EchProxy
