import EchProxy.Http.Handle
import EchProxy.Http.Rewrite
import EchProxy.Socks.Handle

/-! # No Relay without Authentication

    Whatever a client sends, nothing goes out before the router is asked, and
    the router is asked for a user only after the client has logged in as this
    user, in the way of its protocol.
-/

namespace EchProxy

open Checked Traced

variable {Pool : Type}

/-! ## Traces -/

namespace IngressEvent

/-- Something leaves the program, other than towards its client. -/
def goesOut (e : IngressEvent Pool) : Bool := !e.isWrite && !e.isDecide

end IngressEvent

/-- The router is asked for users that meet `P` only, and nothing goes out before
    it is. -/
structure OnlyFor (P : UserProfile → Prop) (events : List (IngressEvent Pool)) : Prop where
  decided : ∀ user host port, .decide user host port ∈ events → P user
  nothing_before : ∀ before e after, events = before ++ e :: after → e.goesOut = true →
    ∃ user host port, .decide user host port ∈ before

section traces
variable {P : UserProfile → Prop} {writes more : List (IngressEvent Pool)}

/-- Answers to the client are nothing. -/
theorem onlyFor_writes (hwrites : ∀ e ∈ writes, e.isWrite = true) : OnlyFor P writes where
  decided := fun user host port hmem => by cases hwrites _ hmem
  nothing_before := by
    rintro before e after rfl hout
    have hwrite := hwrites e (by simp)
    simp [IngressEvent.goesOut, hwrite] at hout

/-- After the answers comes one call of the router. -/
theorem onlyFor_decide {user : UserProfile} {host : Text} {port : UInt16}
    (hwrites : ∀ e ∈ writes, e.isWrite = true) (hmore : ∀ e ∈ more, e.isDecide = false)
    (huser : P user) : OnlyFor P (writes ++ .decide user host port :: more) where
  decided := by
    intro user' host' port' hmem
    rcases List.mem_append.mp hmem with hwrite | hrest
    · cases hwrites _ hwrite
    · rcases List.mem_cons.mp hrest with heq | hlater
      · rw [IngressEvent.decide.injEq] at heq
        exact heq.1 ▸ huser
      · cases hmore _ hlater
  nothing_before := by
    intro before e after hsplit hout
    rcases Lines.cut_cases hsplit with ⟨mid, rfl⟩ | ⟨-, rfl, -⟩ | ⟨mid, rfl, -⟩
    · have hwrite := hwrites e (by simp)
      simp [IngressEvent.goesOut, hwrite] at hout
    · cases hout
    · exact ⟨user, host, port, by simp⟩

end traces

/-! ## SOCKS5 -/

namespace Socks

/-- The client is in as `user`: without authentication, where that is allowed and
    offered, or with the name and the password of a profile. -/
inductive LoggedIn (auth : AuthStore) (options : Socks5Options) (bytes : Bytes)
    (user : UserProfile) : Prop where
  | noAuth (greeting : Greeting) (rest : Bytes) (username : Text)
      (hbytes : bytes = greeting.encode ++ rest) (hallow : options.allowNoAuth = true)
      (hoffer : authNoAuth ∈ greeting.methods) (hdefault : options.defaultUser = some username)
      (huser : auth.user username = some user) (hname : user.username = username)
  | userPass (greeting : Greeting) (credentials : Credentials) (rest : Bytes)
      (hbytes : bytes = greeting.encode ++ credentials.encode ++ rest)
      (hoffer : authUserPass ∈ greeting.methods)
      (huser : auth.user credentials.username = some user)
      (hname : user.username = credentials.username)
      (hpassword : user.password = credentials.password)

section handle
variable {users : HashMap UserConfig} {setup : Setup Pool} {client : ClientStream}

/-- Who completes a handshake is in. -/
theorem loggedIn_of_handshake (hstore : AuthStore.fromConfig users = .ok setup.auth)
    (handshake : Handshake setup.auth setup.options) {trailing : Bytes}
    (hbytes : client.bytes = handshake.encode ++ trailing) :
    LoggedIn setup.auth setup.options client.bytes handshake.user := by
  obtain ⟨greeting, login, hselects, user, haccepted, request⟩ := handshake
  rw [Handshake.encode, List.append_assoc] at hbytes
  cases login with
  | noAuth =>
    obtain ⟨username, hdefault, huser⟩ := haccepted
    rw [List.append_assoc] at hbytes
    cases hselects with
    | noAuth hallow hoffer =>
      exact .noAuth greeting _ username hbytes hallow hoffer hdefault huser
        (AuthStore.username_of_user hstore huser)
  | userPass credentials =>
    obtain ⟨huser, hpassword⟩ := AuthStore.authenticate_eq_some.mp haccepted
    have hoffer : authUserPass ∈ greeting.methods := by
      cases hselects with
      | userPass _ hoffer => exact hoffer
    exact .userPass greeting credentials _ hbytes hoffer huser
      (AuthStore.username_of_user hstore huser) hpassword

theorem handle_onlyFor (hstore : AuthStore.fromConfig users = .ok setup.auth)
    (client : ClientStream) :
    OnlyFor (LoggedIn setup.auth setup.options client.bytes) (handle setup client).events := by
  have hwrites : (accept client setup.auth setup.options client.bytes : Ingress Pool _).Only
      fun e => e.isWrite = true := accept_records client.bytes
  cases hresult : (accept client setup.auth setup.options client.bytes : Ingress Pool _).result with
  | error fault =>
    rw [handle, bind_error _ hresult]
    exact onlyFor_writes hwrites
  | ok p =>
    obtain ⟨⟨user, host, port⟩, rest⟩ := p
    obtain ⟨handshake, hbytes, houtcome⟩ := handshake_of_accept hresult
    obtain rfl : user = handshake.user := congrArg Prod.fst houtcome
    obtain ⟨more, hmore, hlater⟩ := connect_events setup client handshake.user host port rest
    rw [handle, bind_ok _ hresult]
    dsimp only
    rw [hmore]
    exact onlyFor_decide hwrites hlater (loggedIn_of_handshake hstore handshake hbytes)

end handle

end Socks

/-! ## HTTP -/

namespace Http

/-- The value of a `Proxy-Authorization` header carries a name and a password. -/
def Carries (base64 : Text → Option Bytes) (value username password : Text) : Prop :=
  ∃ encoded,
    (Str.trim value = "Basic ".toList ++ encoded ∨ Str.trim value = "basic ".toList ++ encoded) ∧
    base64 encoded = some (Text.asBytes (username ++ ':' :: password)) ∧ ':' ∉ username

/-- The first `Proxy-Authorization` header of the client's request carries the
    name and the password of the profile. -/
def LoggedIn (setup : Setup Pool) (client : ClientStream) (user : UserProfile) : Prop :=
  ∃ head rest request value,
    readHeader client = .ok (head, rest) ∧ parseRequest head = .ok request ∧
    findHeader proxyAuthorization request.headers = some value ∧
    Carries setup.base64 value user.username user.password ∧
    setup.auth.user user.username = some user

section handle
variable {users : HashMap UserConfig} {setup : Setup Pool} {client : ClientStream}

theorem authenticate_spec {base64 : Text → Option Bytes} {request : RequestParts} {auth : AuthStore}
    {user : UserProfile} (h : authenticate base64 request auth = .ok user) :
    ∃ value username, findHeader proxyAuthorization request.headers = some value ∧
      Carries base64 value username user.password ∧ auth.user username = some user := by
  rw [authenticate, Result.bind_eq_ok] at h
  obtain ⟨value, hvalue, h⟩ := h
  dsimp only at h
  rw [Result.bind_eq_ok] at h
  obtain ⟨encoded, hencoded, h⟩ := h
  rw [Result.bind_eq_ok] at h
  obtain ⟨bytes, hbytes, h⟩ := h
  rw [Result.bind_eq_ok] at h
  obtain ⟨decoded, hdecoded, h⟩ := h
  rw [Result.bind_eq_ok] at h
  obtain ⟨⟨username, password⟩, hsplit, h⟩ := h
  rw [context_eq_ok] at hvalue hencoded hbytes hdecoded hsplit h
  obtain ⟨hdecoded', hcolon⟩ := Str.splitOnce_char hsplit
  obtain ⟨huser, hpassword⟩ := AuthStore.authenticate_eq_some.mp h
  refine ⟨value, username, hvalue, ⟨encoded, ?_, ?_, hcolon⟩, huser⟩
  · rcases Option.or_eq_some_iff.mp hencoded with hupper | ⟨-, hlower⟩
    · exact .inl (Str.stripPrefix_eq_some.mp hupper)
    · exact .inr (Str.stripPrefix_eq_some.mp hlower)
  · rw [hbytes, ← Text.asBytes_of_fromUtf8 hdecoded, hdecoded', hpassword]

theorem loggedIn_of_accept (hstore : AuthStore.fromConfig users = .ok setup.auth)
    {user : UserProfile} {request : RequestParts} {rest : Bytes}
    (h : (accept setup client).result = .ok (user, request, rest)) : LoggedIn setup client user := by
  obtain ⟨head, hhead, hparsed, hauth⟩ := accept_eq_ok.mp h
  obtain ⟨value, username, hvalue, hcarries, huser⟩ := authenticate_spec hauth
  obtain rfl := AuthStore.username_of_user hstore huser
  exact ⟨head, rest, request, value, hhead, hparsed, hvalue, hcarries, huser⟩

theorem startRelay_only (setup : Setup Pool) (relay : Relay Pool) :
    Only (startRelay setup relay) fun e => e.isDecide = false := by
  refine Only.bind ((establish_only _ _).mono fun e he => ?_) fun _ _ => ?_
  · cases e with
    | decide => rcases he with he | he <;> cases he
    | _ => rfl
  · exact Only.bind (Only.emit rfl) fun _ _ => Only.pure _

/-- Behind the head comes at most one call of the router, for the user that is
    in. -/
theorem branch_events (setup : Setup Pool) (client : ClientStream) (user : UserProfile)
    (request : RequestParts) (rest : Bytes) :
    let events := (if Str.eqIgnoreAsciiCase request.method "CONNECT".toList then
        handleConnect setup client user request rest
      else handleAbsolute setup user request rest).events
    events = [] ∨ ∃ host port more, events = .decide user host port :: more ∧
      ∀ e ∈ more, e.isDecide = false := by
  dsimp only
  split
  · rw [handleConnect]
    cases parseAuthority request.target 443 with
    | error fault => exact .inl rfl
    | ok target =>
      rw [lift_ok_bind]
      refine .inr ⟨target.1, target.2, decideRoute_bind_events _ _ _ _ _ fun decision => ?_⟩
      refine Only.bind ((writeAll_only client _).mono fun _ he => he ▸ rfl) fun _ _ => ?_
      exact startRelay_only _ _
  · rw [handleAbsolute]
    cases parseAbsoluteUri request.target with
    | error fault => exact .inl rfl
    | ok absolute =>
      rw [lift_ok_bind]
      refine .inr ⟨absolute.host, _, decideRoute_bind_events _ _ _ _ _ fun decision => ?_⟩
      exact startRelay_only _ _

theorem handle_onlyFor (hstore : AuthStore.fromConfig users = .ok setup.auth)
    (client : ClientStream) :
    OnlyFor (LoggedIn setup client) (handle setup client).events := by
  have hwrites := accept_only setup client
  cases hresult : (accept setup client).result with
  | error fault =>
    rw [handle, bind_error _ hresult]
    exact onlyFor_writes hwrites
  | ok p =>
    obtain ⟨user, request, rest⟩ := p
    rw [handle, bind_ok _ hresult]
    dsimp only
    rcases branch_events setup client user request rest with hnone | ⟨host, port, more, hmore, hlater⟩
    · rw [hnone, List.append_nil]
      exact onlyFor_writes hwrites
    · rw [hmore]
      exact onlyFor_decide hwrites hlater (loggedIn_of_accept hstore hresult)

/-- A `CONNECT` that is let in comes to the router. -/
theorem decide_of_connect {user : UserProfile} {request : RequestParts} {rest : Bytes} {host : Text}
    {port : UInt16} (haccept : (accept setup client).result = .ok (user, request, rest))
    (hmethod : Str.eqIgnoreAsciiCase request.method "CONNECT".toList = true)
    (htarget : parseAuthority request.target 443 = .ok (host, port)) :
    .decide user host port ∈ (handle setup client).events := by
  rw [handle, bind_ok _ haccept]
  dsimp only
  rw [if_pos hmethod, handleConnect, htarget, lift_ok_bind]
  refine List.mem_append_right _ (mem_bind ?_ _)
  rw [decideRoute_events]
  exact List.mem_cons_self

end handle

end Http

/-! ## Both ingresses -/

/-- **No relay without valid local authentication**: on either ingress, for every
    client, the router is asked only for the profile the client has logged in
    as, and before that nothing goes out. -/
theorem no_relay_unauthenticated {users : HashMap UserConfig} {auth : AuthStore}
    (hstore : AuthStore.fromConfig users = .ok auth) :
    (∀ (setup : Socks.Setup Pool) (client : ClientStream), setup.auth = auth →
      OnlyFor (Socks.LoggedIn auth setup.options client.bytes) (Socks.handle setup client).events) ∧
    ∀ (setup : Http.Setup Pool) (client : ClientStream), setup.auth = auth →
      OnlyFor (Http.LoggedIn setup client) (Http.handle setup client).events := by
  constructor
  · rintro setup client rfl
    exact Socks.handle_onlyFor hstore client
  · rintro setup client rfl
    exact Http.handle_onlyFor hstore client

/-! ## Two logins -/

def exampleUsers : HashMap UserConfig :=
  [("alice".toList, ⟨"backend".toList, some "secret".toList, none⟩)]

namespace Http

/-- Alice wants to connect to 10.0.0.1:443. -/
def exampleConnect : RequestParts where
  method := "CONNECT".toList
  target := "10.0.0.1:443".toList
  version := "HTTP/1.1".toList
  headers := [exampleCredentials]

/-- A proxy that knows her. -/
def connectSetup : Setup Nat :=
  ⟨exampleAuth, exampleBase64, Router.exampleRouter, Socks.exampleSetup.network⟩

def connectClient : ClientStream := Socks.exampleClient (Text.asBytes (render exampleConnect))

theorem exampleConnect_parsed : RequestParsed exampleConnect where
  method := ⟨by decide, List.all_iff_forall_prop.mp rfl⟩
  target := ⟨by decide, List.all_iff_forall_prop.mp rfl⟩
  version := ⟨by decide, List.all_iff_forall_prop.mp rfl⟩
  http := by decide
  headers := by
    intro header hmem
    rw [List.mem_singleton.mp hmem]
    exact exampleCredentials_parsed

theorem connectClient_accepted :
    (accept connectSetup connectClient).result = .ok (Router.exampleUser, exampleConnect, []) := by
  have hhead : readHeader connectClient = .ok (Text.asBytes (render exampleConnect), []) := by
    decide +kernel
  have hauth : authenticate connectSetup.base64 exampleConnect connectSetup.auth =
      .ok Router.exampleUser := authenticate_example rfl
  rw [accept, hhead, lift_ok_bind]
  dsimp only
  rw [parseRequest_render exampleConnect_parsed, lift_ok_bind, hauth]
  rfl

theorem exampleConnect_target :
    parseAuthority exampleConnect.target 443 = .ok ("10.0.0.1".toList, 443) := by decide

end Http

/-- The router is asked for Alice, who has logged in. -/
theorem no_relay_unauthenticated_example :
    Socks.LoggedIn Socks.exampleSetup.auth Socks.exampleSetup.options
        Socks.exampleHandshake.encode Router.exampleUser ∧
      Http.LoggedIn Http.connectSetup Http.connectClient Router.exampleUser := by
  have hstore : AuthStore.fromConfig exampleUsers = .ok Socks.exampleSetup.auth := rfl
  constructor
  · let client := Socks.exampleClient Socks.exampleHandshake.encode
    have hbytes : client.bytes = Socks.exampleHandshake.encode ++ [] := (List.append_nil _).symm
    have honly := (no_relay_unauthenticated hstore).1 Socks.exampleSetup client rfl
    exact honly.decided _ _ _ (Socks.decide_of_handshake _ hbytes fun _ _ => rfl)
  · have honly := (no_relay_unauthenticated hstore).2 Http.connectSetup Http.connectClient rfl
    exact honly.decided _ _ _
      (Http.decide_of_connect Http.connectClient_accepted rfl Http.exampleConnect_target)

end EchProxy
