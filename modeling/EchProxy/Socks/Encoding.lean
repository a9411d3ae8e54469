import EchProxy.Socks.Handshake

/-! # The Client's Side of the Handshake

    The three messages as a SOCKS5 client writes them, each with the bounds its
    length bytes need.  The proxy reads exactly what such a client wrote, and
    what it reads is always such a handshake.
-/

namespace EchProxy

namespace Socks

open Checked Traced Reader

variable {Pool : Type}

/-! ## Messages -/

/-- The methods a client offers. -/
structure Greeting where
  methods : Bytes
  fits : methods.length ≤ 255

def Greeting.encode (greeting : Greeting) : Bytes :=
  socksVersion :: UInt8.ofNat greeting.methods.length :: greeting.methods

/-- The method the proxy selects: no authentication where it is allowed, whatever
    else is offered. -/
inductive Greeting.Selects (options : Socks5Options) (greeting : Greeting) : UInt8 → Prop where
  | noAuth (hallow : options.allowNoAuth = true) (hoffer : authNoAuth ∈ greeting.methods) :
      greeting.Selects options authNoAuth
  | userPass (hnot : ¬ (options.allowNoAuth = true ∧ authNoAuth ∈ greeting.methods))
      (hoffer : authUserPass ∈ greeting.methods) : greeting.Selects options authUserPass

theorem Greeting.Selects.method_cases {options : Socks5Options} {greeting : Greeting}
    {method : UInt8} (h : greeting.Selects options method) :
    method = authNoAuth ∨ method = authUserPass := by
  cases h with
  | noAuth => exact .inl rfl
  | userPass => exact .inr rfl

/-- A text behind its length. -/
def encodeString (t : Text) : Bytes := UInt8.ofNat t.len :: t.asBytes

/-- A username and a password. -/
structure Credentials where
  username : Text
  password : Text
  username_fits : username.len ≤ 255
  password_fits : password.len ≤ 255

def Credentials.encode (credentials : Credentials) : Bytes :=
  0x01 :: encodeString credentials.username ++ encodeString credentials.password

/-- How a client says who it is. -/
inductive Login where
  | noAuth
  | userPass (credentials : Credentials)

namespace Login

def method : Login → UInt8
  | .noAuth => authNoAuth
  | .userPass _ => authUserPass

/-- Without authentication there is no message. -/
def encode : Login → Bytes
  | .noAuth => []
  | .userPass credentials => credentials.encode

/-- The proxy lets the client in as `user`. -/
def Accepted (auth : AuthStore) (options : Socks5Options) (user : UserProfile) : Login → Prop
  | .noAuth => ∃ username, options.defaultUser = some username ∧ auth.user username = some user
  | .userPass credentials =>
    auth.authenticate credentials.username credentials.password = some user

/-- What the proxy answers to the message. -/
def answers : Login → List Bytes
  | .noAuth => []
  | .userPass _ => [[0x01, 0x00]]

end Login

/-- Where a client wants to connect to. -/
inductive Destination where
  | ipv4 (ip : Ipv4Addr)
  | domain (name : Text) (fits : name.len ≤ 255)
  | ipv6 (ip : Ipv6Addr)

namespace Destination

def atyp : Destination → UInt8
  | .ipv4 _ => 0x01
  | .domain _ _ => 0x03
  | .ipv6 _ => 0x04

def encode : Destination → Bytes
  | .ipv4 ip => ip.octets
  | .domain name _ => encodeString name
  | .ipv6 ip => ip.octets

/-- The host as a text. -/
def host : Destination → Text
  | .ipv4 ip => IpText.std.display (.v4 ip)
  | .domain name _ => name
  | .ipv6 ip => IpText.std.display (.v6 ip)

/-- The address, if it is one. -/
def ip : Destination → Option IpAddr
  | .ipv4 ip => some (.v4 ip)
  | .domain _ _ => none
  | .ipv6 ip => some (.v6 ip)

/-- The host of an address is parsed back as this address. -/
theorem parse_host {destination : Destination} {ip : IpAddr} (h : destination.ip = some ip) :
    IpText.std.parse destination.host = some ip := by
  cases destination with
  | ipv4 _ | ipv6 _ => exact Option.some.inj h ▸ IpText.parse_display _
  | domain _ _ => cases h

end Destination

/-- A request to connect. -/
structure ConnectRequest where
  destination : Destination
  port : UInt16
  port_ne : port ≠ 0

def ConnectRequest.encode (request : ConnectRequest) : Bytes :=
  [socksVersion, 0x01, 0x00, request.destination.atyp] ++ request.destination.encode
    ++ Digits.toBytes 2 request.port.toNat

/-- A handshake that the proxy completes. -/
structure Handshake (auth : AuthStore) (options : Socks5Options) where
  greeting : Greeting
  login : Login
  selects : greeting.Selects options login.method
  user : UserProfile
  accepted : login.Accepted auth options user
  request : ConnectRequest

namespace Handshake

variable {auth : AuthStore} {options : Socks5Options}

def encode (handshake : Handshake auth options) : Bytes :=
  handshake.greeting.encode ++ handshake.login.encode ++ handshake.request.encode

/-- What the proxy answers up to the request. -/
def answers (handshake : Handshake auth options) : List Bytes :=
  [socksVersion, handshake.login.method] :: handshake.login.answers

/-- Who connects, and where to. -/
def outcome (handshake : Handshake auth options) : UserProfile × Text × UInt16 :=
  (handshake.user, handshake.request.destination.host, handshake.request.port)

end Handshake

/-! ## Reading what a client wrote -/

section reads
variable {client : ClientStream} {auth : AuthStore} {options : Socks5Options}

theorem readU8_reads (b : UInt8) : Reads (readU8 client : Step Pool UInt8) [b] [] b :=
  Reads.item _ b

theorem readExact_reads {n : Nat} {bytes : Bytes} (h : bytes.length = n) :
    Reads (readExact client n : Step Pool Bytes) bytes [] bytes :=
  Reads.exactly _ h

theorem writeAll_eq {bytes : Bytes} (h : client.respond bytes = .ok ()) :
    (writeAll client bytes : Ingress Pool Unit) = ⟨[.write bytes], .ok ()⟩ := by
  rw [writeAll, emit_bind, h]
  rfl

theorem answer_reads {bytes : Bytes} (h : client.respond bytes = .ok ()) :
    Reads (answer client bytes : Step Pool Unit) [] [.write bytes] () :=
  Reads.lift (writeAll_eq h)

theorem toNat_ofNat {n : Nat} (h : n ≤ 255) : (UInt8.ofNat n).toNat = n := by
  rw [UInt8.toNat_ofNat', Nat.mod_eq_of_lt (by omega)]

/-- After the greeting the proxy selects a method and goes on with it. -/
theorem negotiateAuth_run (greeting : Greeting) {method : UInt8}
    (hselects : greeting.Selects options method) (rest : Bytes) :
    (negotiateAuth client options : Step Pool UInt8) (greeting.encode ++ rest) =
      (do answer client [socksVersion, method]; return method : Step Pool UInt8) rest := by
  have hlength : greeting.methods.length = (UInt8.ofNat greeting.methods.length).toNat :=
    (toNat_ofNat greeting.fits).symm
  show (negotiateAuth client options : Step Pool UInt8) ([socksVersion] ++
    ([UInt8.ofNat greeting.methods.length] ++ (greeting.methods ++ rest))) = _
  rw [negotiateAuth, (readU8_reads socksVersion).run_bind, if_neg fun h => h rfl,
    (readU8_reads _).run_bind, (readExact_reads hlength).run_bind]
  cases hselects with
  | noAuth hallow hoffer => rw [if_pos ⟨hallow, hoffer⟩]
  | userPass hnot hoffer => rw [if_neg hnot, if_pos hoffer]

theorem negotiateAuth_reads (greeting : Greeting) {method : UInt8}
    (hselects : greeting.Selects options method)
    (hwrite : client.respond [socksVersion, method] = .ok ()) :
    Reads (negotiateAuth client options : Step Pool UInt8) greeting.encode
      [.write [socksVersion, method]] method := by
  have hanswer : Reads (do answer client [socksVersion, method]; return method : Step Pool UInt8)
      [] [.write [socksVersion, method]] method :=
    (answer_reads hwrite).bind (Reads.pure method) rfl rfl
  intro rest
  rw [negotiateAuth_run greeting hselects]
  exact hanswer rest

/-- A text behind its length, whatever is said of bytes that are no text. -/
theorem readText_reads (msg : String) {t : Text} (hfits : t.len ≤ 255) :
    Reads (do
        let len ← readU8 client
        let buf ← readExact client len.toNat
        context msg (Text.fromUtf8 buf) : Step Pool Text) (encodeString t) [] t := by
  have hlength : t.asBytes.length = (UInt8.ofNat t.len).toNat := (toNat_ofNat hfits).symm
  refine (readU8_reads (UInt8.ofNat t.len)).bind ?_ rfl rfl
  refine (readExact_reads hlength).bind ?_ (List.append_nil _).symm rfl
  rw [Text.fromUtf8_asBytes]
  exact Reads.lift rfl

theorem authenticate_reads {login : Login} {user : UserProfile}
    (haccepted : login.Accepted auth options user)
    (hwrites : ∀ bytes ∈ login.answers, client.respond bytes = .ok ()) :
    Reads (authenticate client auth login.method options : Step Pool UserProfile) login.encode
      (login.answers.map .write) user := by
  cases login with
  | noAuth =>
    obtain ⟨username, hdefault, huser⟩ := haccepted
    have hnoAuth : noAuthUser auth options = .ok user := by
      rw [noAuthUser, hdefault]
      show context _ (auth.user username) = _
      rw [huser]
      rfl
    rw [authenticate, Login.method, if_pos rfl, hnoAuth]
    exact Reads.lift rfl
  | userPass credentials =>
    have hwrite := hwrites [0x01, 0x00] List.mem_cons_self
    -- a version, a name and a password, and then the answer
    rw [authenticate, Login.method, if_neg (by decide)]
    refine (readU8_reads 0x01).bind ?_ rfl rfl
    rw [if_neg fun h => h rfl]
    refine (readText_reads _ credentials.username_fits).bind ?_ rfl rfl
    refine (readText_reads _ credentials.password_fits).bind ?_ (List.append_nil _).symm rfl
    refine Reads.lift ?_
    rw [checkCredentials, haccepted]
    show (writeAll client [0x01, 0x00] >>= fun _ => pure user : Ingress Pool UserProfile) = _
    rw [writeAll_eq hwrite]
    rfl

theorem readHost_reads (destination : Destination) :
    Reads (readHost client destination.atyp : Step Pool Text) destination.encode []
      destination.host := by
  cases destination with
  | ipv4 ip =>
    refine (readExact_reads (Digits.length_toBytes 4 _)).bind ?_ (List.append_nil _).symm rfl
    have hip := Ipv4Addr.ofOctets_octets ip
    rw [Ipv4Addr.octets] at hip
    rw [hip]
    exact Reads.pure _
  | domain name fits => exact readText_reads _ fits
  | ipv6 ip =>
    refine (readExact_reads (Digits.length_toBytes 16 _)).bind ?_ (List.append_nil _).symm rfl
    have hip := Ipv6Addr.ofOctets_octets ip
    rw [Ipv6Addr.octets] at hip
    rw [hip]
    exact Reads.pure _

theorem readU16_reads (n : UInt16) :
    Reads (readU16 client : Step Pool UInt16) (Digits.toBytes 2 n.toNat) [] n := by
  have hlt := n.toNat_lt
  refine (readExact_reads (Digits.length_toBytes 2 _)).bind ?_ (List.append_nil _).symm rfl
  rw [Digits.ofBytes_toBytes (by omega), UInt16.ofNat_toNat]
  exact Reads.pure n

theorem readConnectRequest_reads (request : ConnectRequest) :
    Reads (readConnectRequest client : Step Pool (Text × UInt16)) request.encode []
      (request.destination.host, request.port) := by
  refine (readU8_reads socksVersion).bind ?_ rfl rfl
  refine (readU8_reads 0x01).bind ?_ rfl rfl
  refine (readU8_reads 0x00).bind ?_ rfl rfl
  refine (readU8_reads request.destination.atyp).bind ?_ rfl rfl
  rw [if_neg (by decide), if_neg (by decide)]
  refine (readHost_reads request.destination).bind ?_ rfl rfl
  refine (readU16_reads request.port).bind ?_ (List.append_nil _).symm rfl
  rw [if_neg request.port_ne]
  exact Reads.pure _

theorem accept_reads (handshake : Handshake auth options)
    (hwrites : ∀ bytes ∈ handshake.answers, client.respond bytes = .ok ()) :
    Reads (accept client auth options : Step Pool _) handshake.encode
      (handshake.answers.map .write) handshake.outcome := by
  have hgreeting : Reads (negotiateAuth client options : Step Pool UInt8) _ _ _ :=
    negotiateAuth_reads handshake.greeting handshake.selects (hwrites _ List.mem_cons_self)
  have hlogin : Reads (authenticate client auth handshake.login.method options : Step Pool _) _ _ _ :=
    authenticate_reads handshake.accepted fun bytes hmem =>
      hwrites bytes (List.mem_cons_of_mem _ hmem)
  refine hgreeting.bind ?_ (List.append_assoc _ _ _) rfl
  refine hlogin.bind ?_ rfl (List.append_nil _).symm
  exact (readConnectRequest_reads handshake.request).bind (Reads.pure _)
    (List.append_nil _).symm rfl

/-- A stream begins with one handshake only: a client that takes every answer is
    read in one way. -/
theorem Handshake.outcome_unique {h h' : Handshake auth options} {rest rest' : Bytes}
    (heq : h.encode ++ rest = h'.encode ++ rest') : h.outcome = h'.outcome := by
  have hread : ∀ (h : Handshake auth options) (rest : Bytes),
      (accept ⟨[], none, fun _ => .ok ()⟩ auth options (h.encode ++ rest) : Ingress Nat _).result =
        .ok (h.outcome, rest) := by
    intro h rest
    rw [accept_reads h fun _ _ => rfl]
  have hfirst := hread h rest
  rw [heq, hread h' rest'] at hfirst
  exact (congrArg Prod.fst (Except.ok.inj hfirst)).symm

end reads

/-! ## What is read is a handshake -/

section takes
variable {client : ClientStream} {auth : AuthStore} {options : Socks5Options}

theorem readU8_takes : Takes (readU8 client : Step Pool UInt8) fun used events b =>
    used = [b] ∧ events = [] :=
  Takes.item _

theorem readExact_takes (n : Nat) : Takes (readExact client n : Step Pool Bytes)
    fun used events bytes => used = bytes ∧ bytes.length = n ∧ events = [] :=
  Takes.exactly _ n

theorem answer_takes (bytes : Bytes) : Takes (answer client bytes : Step Pool Unit)
    fun used events _ => used = [] ∧ events = [.write bytes] := by
  refine (Takes.lift _).mono fun used events _ ⟨hused, hrun⟩ => ⟨hused, ?_⟩
  rw [writeAll, emit_bind] at hrun
  exact (congrArg Traced.events hrun).symm

/-- An error behind an answer returns nothing. -/
theorem answer_bail_takes {α : Type} (bytes : Bytes) (msg : String)
    {P : Bytes → List (IngressEvent Pool) → α → Prop} :
    Takes (do answer client bytes; bail msg : Step Pool α) P :=
  (answer_takes bytes).bind fun _ _ _ _ => Takes.error _

theorem negotiateAuth_takes : Takes (negotiateAuth client options : Step Pool UInt8)
    fun used events method => ∃ greeting : Greeting, used = greeting.encode ∧
      greeting.Selects options method ∧ events = [.write [socksVersion, method]] := by
  refine readU8_takes.bind fun _ _ version ⟨hversion, hnone⟩ => ?_
  subst hversion hnone
  refine Takes.ite (fun _ => Takes.error _) fun hversion => ?_
  refine readU8_takes.bind fun _ _ len ⟨hlen, hnone⟩ => ?_
  subst hlen hnone
  refine (readExact_takes _).bind fun methods _ _ ⟨hused, hlength, hnone⟩ => ?_
  subst hused hnone
  have hfits : methods.length ≤ 255 := by
    have hlt := len.toNat_lt
    omega
  -- the bytes taken so far are a greeting
  have hencode : [version] ++ ([len] ++ (methods ++ ([] ++ []))) = Greeting.encode ⟨methods, hfits⟩ := by
    rw [Greeting.encode, hlength, UInt8.ofNat_toNat, Classical.not_not.mp hversion]
    simp
  -- the method that is answered is the one that is returned
  have hselect : ∀ method, Greeting.Selects options ⟨methods, hfits⟩ method →
      Takes (do answer client [socksVersion, method]; return method : Step Pool UInt8)
        fun used events method' => ∃ greeting : Greeting,
          [version] ++ ([len] ++ (methods ++ used)) = greeting.encode ∧
          greeting.Selects options method' ∧
          [] ++ ([] ++ ([] ++ events)) = [.write [socksVersion, method']] := by
    intro method hselects
    refine (answer_takes _).bind fun _ _ _ ⟨hused, hevents⟩ => ?_
    subst hused hevents
    refine (Takes.pure method).mono fun _ _ _ ⟨hused, hevents, hmethod⟩ => ?_
    subst hused hevents hmethod
    exact ⟨⟨methods, hfits⟩, hencode, hselects, rfl⟩
  refine Takes.ite (fun hnoAuth => hselect _ (.noAuth hnoAuth.1 hnoAuth.2)) fun hnot => ?_
  refine Takes.ite (fun hoffer => hselect _ (.userPass hnot hoffer)) fun _ => ?_
  exact answer_bail_takes _ _

theorem eval_takes {α : Type} (x : Eval α) : Takes (liftM x : Step Pool α)
    fun used events a => used = [] ∧ events = [] ∧ x = .ok a := by
  refine (Takes.lift (liftM x)).mono fun used events a ⟨hused, hrun⟩ => ⟨hused, ?_, ?_⟩
  · exact (congrArg Traced.events hrun).symm
  · exact congrArg Traced.result hrun

/-- A reply behind which nothing is returned. -/
theorem sendReply_bail_takes {α : Type} (reply : UInt8) (msg : String)
    {P : Bytes → List (IngressEvent Pool) → α → Prop} :
    Takes (do (sendReply client reply : Ingress Pool Unit); bail msg : Step Pool α) P :=
  (Takes.lift _).bind fun _ _ _ _ => Takes.error _

theorem readText_takes (msg : String) : Takes (do
      let len ← readU8 client
      let buf ← readExact client len.toNat
      context msg (Text.fromUtf8 buf) : Step Pool Text)
    fun used events t => t.len ≤ 255 ∧ used = encodeString t ∧ events = [] := by
  refine readU8_takes.bind fun _ _ len ⟨hlen, hnone⟩ => ?_
  subst hlen hnone
  refine (readExact_takes _).bind fun bytes _ _ ⟨hused, hlength, hnone⟩ => ?_
  subst hused hnone
  refine (eval_takes _).mono fun _ _ t ⟨hused, hnone, hcontext⟩ => ?_
  subst hused hnone
  have hbytes : t.asBytes = bytes := Text.asBytes_of_fromUtf8 (context_eq_ok.mp hcontext)
  have hlen : t.len = len.toNat := by rw [Text.len, hbytes, hlength]
  refine ⟨?_, ?_, rfl⟩
  · have hlt := len.toNat_lt
    omega
  · rw [encodeString, hlen, UInt8.ofNat_toNat, hbytes]
    simp

theorem checkCredentials_takes {username password : Text} :
    Takes (liftM (checkCredentials client auth username password : Ingress Pool UserProfile) :
        Step Pool UserProfile)
      fun used events user => used = [] ∧ events = [.write [0x01, 0x00]] ∧
        auth.authenticate username password = some user := by
  refine (Takes.lift _).mono fun _ _ user ⟨hused, hrun⟩ => ⟨hused, ?_⟩
  rw [checkCredentials] at hrun
  cases hauth : auth.authenticate username password with
  | none =>
    rw [hauth] at hrun
    obtain ⟨_, _, _, _, hbail, -⟩ := Traced.bind_eq_ok hrun
    cases hbail
  | some found =>
    rw [hauth] at hrun
    obtain ⟨_, _, _, hwrite, hreturn, rfl⟩ := Traced.bind_eq_ok hrun
    obtain ⟨rfl, hfound⟩ := Traced.mk.inj hreturn
    rw [writeAll, emit_bind] at hwrite
    obtain ⟨rfl, -⟩ := Traced.mk.inj hwrite
    exact ⟨rfl, congrArg some (Except.ok.inj hfound)⟩

theorem authenticate_takes {method : UInt8} (hmethod : method = authNoAuth ∨ method = authUserPass) :
    Takes (authenticate client auth method options : Step Pool UserProfile)
      fun used events user => ∃ login : Login, login.method = method ∧ used = login.encode ∧
        login.Accepted auth options user ∧ events = login.answers.map .write := by
  refine Takes.ite (fun hnoAuth => ?_) fun hnot => ?_
  · refine (eval_takes _).mono fun _ _ user ⟨hused, hnone, hrun⟩ => ?_
    refine ⟨.noAuth, hnoAuth.symm, hused, ?_, hnone⟩
    rw [noAuthUser, Result.bind_eq_ok] at hrun
    obtain ⟨username, hdefault, huser⟩ := hrun
    exact ⟨username, context_eq_ok.mp hdefault, context_eq_ok.mp huser⟩
  · refine readU8_takes.bind fun _ _ version ⟨hversion, hnone⟩ => ?_
    subst hversion hnone
    refine Takes.ite (fun _ => answer_bail_takes _ _) fun hversion => ?_
    refine (readText_takes _).bind fun _ _ username ⟨hshort, hused, hnone⟩ => ?_
    subst hused hnone
    refine (readText_takes _).bind fun _ _ password ⟨hshort', hused, hnone⟩ => ?_
    subst hused hnone
    refine checkCredentials_takes.mono fun _ _ user ⟨hused, hevents, hauth⟩ => ?_
    subst hused hevents
    refine ⟨.userPass ⟨username, password, hshort, hshort'⟩, ?_, ?_, hauth, rfl⟩
    · exact (hmethod.resolve_left hnot).symm
    · rw [Classical.not_not.mp hversion]
      simp [Login.encode, Credentials.encode]

theorem readHost_takes (atyp : UInt8) : Takes (readHost client atyp : Step Pool Text)
    fun used events host => ∃ destination : Destination, destination.atyp = atyp ∧
      used = destination.encode ∧ host = destination.host ∧ events = [] := by
  refine Takes.ite (fun hv4 => ?_) fun _ => Takes.ite (fun hname => ?_) fun _ =>
    Takes.ite (fun hv6 => ?_) fun _ => sendReply_bail_takes _ _
  · refine (readExact_takes 4).bind fun octets _ _ ⟨hused, hlength, hnone⟩ => ?_
    subst hused hnone
    refine (Takes.pure _).mono fun _ _ host ⟨hused, hnone, hhost⟩ => ?_
    subst hused hnone hhost
    refine ⟨.ipv4 (.ofOctets octets), hv4.symm, ?_, rfl, rfl⟩
    rw [Destination.encode, Ipv4Addr.octets_ofOctets hlength, List.append_nil]
  · refine (readText_takes _).mono fun used events name ⟨hfits, hused, hnone⟩ => ?_
    exact ⟨.domain name hfits, hname.symm, hused, rfl, hnone⟩
  · refine (readExact_takes 16).bind fun octets _ _ ⟨hused, hlength, hnone⟩ => ?_
    subst hused hnone
    refine (Takes.pure _).mono fun _ _ host ⟨hused, hnone, hhost⟩ => ?_
    subst hused hnone hhost
    refine ⟨.ipv6 (.ofOctets octets), hv6.symm, ?_, rfl, rfl⟩
    rw [Destination.encode, Ipv6Addr.octets_ofOctets hlength, List.append_nil]

theorem readU16_takes : Takes (readU16 client : Step Pool UInt16)
    fun used events n => used = Digits.toBytes 2 n.toNat ∧ events = [] := by
  refine (readExact_takes 2).bind fun bytes _ _ ⟨hused, hlength, hnone⟩ => ?_
  subst hused hnone
  refine (Takes.pure _).mono fun _ _ n ⟨hused, hnone, hn⟩ => ?_
  subst hused hnone hn
  have hlt := Digits.ofBytes_lt bytes
  rw [hlength] at hlt
  refine ⟨?_, rfl⟩
  have hmod : Digits.ofBytes bytes % 2 ^ 16 = Digits.ofBytes bytes := Nat.mod_eq_of_lt hlt
  rw [UInt16.toNat_ofNat', hmod, ← hlength, Digits.toBytes_ofBytes, List.append_nil]

theorem readConnectRequest_takes : Takes (readConnectRequest client : Step Pool (Text × UInt16))
    fun used events target => ∃ request : ConnectRequest, used = request.encode ∧
      target = (request.destination.host, request.port) ∧ events = [] := by
  refine readU8_takes.bind fun _ _ version ⟨hused, hnone⟩ => ?_
  subst hused hnone
  refine readU8_takes.bind fun _ _ command ⟨hused, hnone⟩ => ?_
  subst hused hnone
  refine readU8_takes.bind fun _ _ reserved ⟨hused, hnone⟩ => ?_
  subst hused hnone
  refine readU8_takes.bind fun _ _ atyp ⟨hused, hnone⟩ => ?_
  subst hused hnone
  refine Takes.ite (fun _ => Takes.error _) fun hheader => ?_
  refine Takes.ite (fun _ => sendReply_bail_takes _ _) fun hcommand => ?_
  -- past the checks the first three bytes are fixed
  obtain ⟨hversion, hreserved⟩ := not_or.mp hheader
  obtain rfl := Classical.not_not.mp hversion
  obtain rfl := Classical.not_not.mp hreserved
  obtain rfl := Classical.not_not.mp hcommand
  refine (readHost_takes atyp).bind fun _ _ host ⟨destination, hatyp, hused, hhost, hnone⟩ => ?_
  subst hatyp hused hhost hnone
  refine readU16_takes.bind fun _ _ port ⟨hused, hnone⟩ => ?_
  subst hused hnone
  refine Takes.ite (fun _ => sendReply_bail_takes _ _) fun hport => ?_
  refine (Takes.pure _).mono fun _ _ target ⟨hused, hnone, htarget⟩ => ?_
  subst hused hnone htarget
  refine ⟨⟨destination, port, hport⟩, ?_, rfl, rfl⟩
  simp [ConnectRequest.encode]

/-- **What the proxy takes off the stream is a handshake.** -/
theorem accept_takes : Takes (accept client auth options : Step Pool _)
    fun used events outcome => ∃ handshake : Handshake auth options, used = handshake.encode ∧
      outcome = handshake.outcome ∧ events = handshake.answers.map .write := by
  refine negotiateAuth_takes.bind fun _ _ method ⟨greeting, hused, hselects, hevents⟩ => ?_
  subst hused hevents
  refine (authenticate_takes hselects.method_cases).bind
    fun _ _ user ⟨login, hlogin, hused, haccepted, hevents⟩ => ?_
  subst hlogin hused hevents
  refine readConnectRequest_takes.bind fun _ _ target ⟨request, hused, htarget, hnone⟩ => ?_
  subst hused htarget hnone
  refine (Takes.pure _).mono fun _ _ outcome ⟨hused, hnone, houtcome⟩ => ?_
  subst hused hnone houtcome
  refine ⟨⟨greeting, login, hselects, user, haccepted, request⟩, ?_, rfl, ?_⟩
  · simp [Handshake.encode]
  · simp [Handshake.answers]

end takes

end Socks

end EchProxy
