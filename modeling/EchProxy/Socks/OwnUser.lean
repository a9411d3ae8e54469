import EchProxy.Ingress.Authenticated

/-! # A Client that could Log In

    A client that offers username and password, with credentials of its own,
    talks to the proxy: it sends its greeting, waits for the method and goes
    on with what this method needs.  It is routed under its own user exactly
    if the proxy does not select "no authentication", which it prefers where
    it is allowed.
-/

namespace EchProxy

namespace Socks

open Checked Traced Reader

variable {Pool : Type}

/-- A client with credentials, and all it would send. -/
structure OwnClient where
  greeting : Greeting
  offers : authUserPass ∈ greeting.methods
  credentials : Credentials
  request : ConnectRequest
  /-- What it sends behind the handshake. -/
  data : Bytes

/-- What it goes on with once a method is selected. -/
def OwnClient.reaction (c : OwnClient) (method : UInt8) : Bytes :=
  (if method = authUserPass then c.credentials.encode else []) ++ c.request.encode ++ c.data

/-- The stream is what the client sends: its greeting, and its reaction to the
    method that the proxy answers to it. -/
def OwnClient.Sends (c : OwnClient) (setup : Setup Pool) (client : ClientStream) : Prop :=
  ∃ method,
    (negotiateAuth client setup.options c.greeting.encode : Ingress Pool _).events =
      [.write [socksVersion, method]] ∧
    client.bytes = c.greeting.encode ++ c.reaction method

/-- The connection is the user's: its profile is the one that is routed, no tunnel
    is opened through another backend, and the client is not taken for one that
    cannot log in. -/
structure RoutedAs (setup : Setup Pool) (client : ClientStream) (user : UserProfile) : Prop where
  /-- Nothing but a failing write to the client keeps it from being routed. -/
  routed : (∀ bytes, client.respond bytes = .ok ()) →
    ∃ host port, .decide user host port ∈ (handle setup client).events
  decided : ∀ user' host port, .decide user' host port ∈ (handle setup client).events → user' = user
  backend : ∀ pool target, .request pool target ∈ (handle setup client).events →
    setup.router.pools.lookup user.backend = some pool
  not_mapped : .write [socksVersion, authNoAuth] ∉ (handle setup client).events

/-- The proxy selects "no authentication". -/
def PrefersNoAuth (options : Socks5Options) (greeting : Greeting) : Prop :=
  options.allowNoAuth = true ∧ authNoAuth ∈ greeting.methods

instance (options : Socks5Options) (greeting : Greeting) :
    Decidable (PrefersNoAuth options greeting) :=
  inferInstanceAs (Decidable (_ ∧ _))

section own
variable {setup : Setup Pool} {client : ClientStream} {c : OwnClient} {user : UserProfile}

/-- The proxy prefers "no authentication", and else takes the password. -/
theorem selects_cases (options : Socks5Options) (c : OwnClient) :
    PrefersNoAuth options c.greeting ∧ c.greeting.Selects options authNoAuth ∨
      ¬ PrefersNoAuth options c.greeting ∧ c.greeting.Selects options authUserPass := by
  by_cases hprefers : PrefersNoAuth options c.greeting
  · exact .inl ⟨hprefers, .noAuth hprefers.1 hprefers.2⟩
  · exact .inr ⟨hprefers, .userPass hprefers c.offers⟩

/-- The method the client reacts to is the one that is selected. -/
theorem OwnClient.Sends.bytes (h : c.Sends setup client) {method : UInt8}
    (hselects : c.greeting.Selects setup.options method) :
    client.bytes = c.greeting.encode ++ c.reaction method := by
  obtain ⟨answered, hanswered, hbytes⟩ := h
  have hevents : (negotiateAuth client setup.options (c.greeting.encode ++ []) : Ingress Pool _).events =
      [.write [socksVersion, method]] := negotiateAuth_events c.greeting hselects []
  rw [List.append_nil, hanswered] at hevents
  have hmethod : answered = method := by simpa using hevents
  rw [hbytes, hmethod]

/-- The trace begins with this method. -/
theorem OwnClient.Sends.events (h : c.Sends setup client) {method : UInt8}
    (hselects : c.greeting.Selects setup.options method) :
    ∃ more, (accept client setup.auth setup.options client.bytes : Ingress Pool _).events =
        .write [socksVersion, method] :: more ∧ ∀ e ∈ more, IsAnswer e := by
  rw [h.bytes hselects]
  exact accept_events c.greeting hselects _

/-- Behind the handshake no method is selected. -/
theorem connect_selects_nothing (setup : Setup Pool) (client : ClientStream) (user : UserProfile)
    (host : Text) (port : UInt16) (rest : Bytes) :
    Only (connect setup client (user, host, port) rest) fun e =>
      ∀ method, e ≠ .write [socksVersion, method] := by
  refine connect_rule _ _ _ _ _ _ (fun method heq => ?_) (fun l method heq => ?_)
    (fun reply method heq => ?_) (fun method heq => ?_) fun decision _ => ?_
  · cases heq
  · cases heq
  · exact replyBytes_ne reply method (IngressEvent.write.inj heq)
  · cases heq
  · refine (establish_only _ _).mono fun e he method heq => ?_
    rw [heq] at he
    rcases he with he | he <;> cases he

/-- Tunnels are opened through the backend of the user that is routed. -/
theorem connect_request (setup : Setup Pool) (client : ClientStream) (user : UserProfile)
    (host : Text) (port : UInt16) (rest : Bytes) :
    Only (connect setup client (user, host, port) rest) fun e => ∀ pool target,
      e = .request pool target → setup.router.pools.lookup user.backend = some pool := by
  refine connect_rule _ _ _ _ _ _ (fun pool target heq => ?_) (fun l pool target heq => ?_)
    (fun reply pool target heq => ?_) (fun pool target heq => ?_) fun decision hdecision => ?_
  · cases heq
  · cases heq
  · cases heq
  · cases heq
  · refine (establish_request _ _).mono fun e he pool target heq => ?_
    obtain rfl : decision = .proxy pool := he pool target heq
    exact Router.pool_of_decide hdecision

/-- With a password the connection is the user's. -/
theorem routedAs_of_userPass (h : c.Sends setup client)
    (hvalid : setup.auth.authenticate c.credentials.username c.credentials.password = some user)
    (hselects : c.greeting.Selects setup.options authUserPass) : RoutedAs setup client user := by
  let handshake : Handshake setup.auth setup.options :=
    ⟨c.greeting, .userPass c.credentials, hselects, user, hvalid, c.request⟩
  have hbytes : client.bytes = handshake.encode ++ c.data := by
    rw [h.bytes hselects, OwnClient.reaction, if_pos rfl]
    simp [handshake, Handshake.encode, Login.encode]
  have hwrites : ∀ e ∈ (accept client setup.auth setup.options client.bytes : Ingress Pool _).events,
      e.isWrite = true := accept_records client.bytes
  obtain ⟨answers, hanswers, hnone⟩ := h.events hselects
  have hcases := handle_events_of_handshake handshake hbytes
  -- what is in the trace is an answer, or comes with the connection
  have hmem : ∀ e ∈ (handle setup client).events,
      e ∈ (accept client setup.auth setup.options client.bytes : Ingress Pool _).events ∨
        ∃ rest, e ∈ (connect setup client handshake.outcome rest).events := by
    intro e he
    rcases hcases with heq | ⟨rest, heq⟩ <;> rw [heq] at he
    · exact .inl he
    · exact (List.mem_append.mp he).imp id fun hconnect => ⟨rest, hconnect⟩
  refine ⟨fun hrespond => ?_, fun user' host port hdecide => ?_, fun pool target hrequest => ?_,
    fun hmapped => ?_⟩
  · exact ⟨_, _, decide_of_handshake handshake hbytes fun bytes _ => hrespond bytes⟩
  · rcases hmem _ hdecide with hanswer | ⟨rest, hconnect⟩
    · cases hwrites _ hanswer
    · obtain ⟨more, hmore, hlater⟩ := connect_events setup client user
        c.request.destination.host c.request.port rest
      rw [show (connect setup client handshake.outcome rest).events = _ from hmore] at hconnect
      rcases List.mem_cons.mp hconnect with heq | hmem
      · exact (IngressEvent.decide.inj heq).1
      · cases hlater _ hmem
  · rcases hmem _ hrequest with hanswer | ⟨rest, hconnect⟩
    · cases hwrites _ hanswer
    · exact connect_request setup client user _ _ rest _ hconnect pool target rfl
  · rcases hmem _ hmapped with hanswer | ⟨rest, hconnect⟩
    · rw [hanswers] at hanswer
      rcases List.mem_cons.mp hanswer with heq | hlater
      -- the method that was answered is not the mapped one
      · exact absurd (IngressEvent.write.inj heq) (by decide)
      · obtain ⟨bytes, heq, hne⟩ := hnone _ hlater
        exact hne _ (IngressEvent.write.inj heq).symm
    · exact connect_selects_nothing setup client user _ _ rest _ hconnect _ rfl

/-- **A client with credentials of its own is routed under its own user exactly
    when** the proxy does not prefer "no authentication". -/
theorem own_user_exact (hsends : c.Sends setup client)
    (hvalid : setup.auth.authenticate c.credentials.username c.credentials.password = some user) :
    RoutedAs setup client user ↔ ¬ PrefersNoAuth setup.options c.greeting := by
  rcases selects_cases setup.options c with ⟨hprefers, hselects⟩ | ⟨hnot, hselects⟩
  · refine ⟨fun h => absurd ?_ h.not_mapped, fun h => absurd hprefers h⟩
    obtain ⟨answers, hanswers, -⟩ := hsends.events hselects
    exact mem_bind (hanswers ▸ List.mem_cons_self) _
  · exact ⟨fun _ => hnot, fun _ => routedAs_of_userPass hsends hvalid hselects⟩

end own

/-! ## A client that offers both -/

/-- Alice and Bob; Bob's backend is another one. -/
def twoUsers : Setup Nat :=
  { exampleSetup with
    auth := ⟨[("alice".toList, Router.exampleUser),
      ("bob".toList, ⟨"bob".toList, "hidden".toList, "second".toList⟩)]⟩
    options := ⟨true, some "alice".toList⟩ }

def bob : UserProfile := ⟨"bob".toList, "hidden".toList, "second".toList⟩

/-- Bob's client, with the methods it offers. -/
def bobClient (methods : Bytes) (hfits : methods.length ≤ 255) (hoffers : authUserPass ∈ methods) :
    OwnClient where
  greeting := ⟨methods, hfits⟩
  offers := hoffers
  credentials := ⟨"bob".toList, "hidden".toList, by decide, by decide⟩
  request := { exampleHandshake.request with destination := .domain "a.example".toList (by decide) }
  data := []

def bobWithPassword : OwnClient := bobClient [authUserPass] (by decide) (by decide)

def bobWithBoth : OwnClient :=
  bobClient exampleHandshake.greeting.methods exampleHandshake.greeting.fits (by decide)

/-- A client that sends what it reacts with to `method`. -/
def OwnClient.stream (c : OwnClient) (method : UInt8) : ClientStream :=
  exampleClient (c.greeting.encode ++ c.reaction method)

theorem own_user_exact_password : RoutedAs twoUsers (bobWithPassword.stream authUserPass) bob := by
  have hsends : bobWithPassword.Sends twoUsers (bobWithPassword.stream authUserPass) :=
    ⟨authUserPass, rfl, rfl⟩
  exact (own_user_exact hsends rfl).mpr (by decide)

/-- Bob offers both methods, and Alice is routed. -/
theorem offers_both_mapped :
    bobWithBoth.Sends twoUsers (bobWithBoth.stream authNoAuth) ∧
      twoUsers.auth.authenticate bobWithBoth.credentials.username
        bobWithBoth.credentials.password = some bob ∧
      ¬ RoutedAs twoUsers (bobWithBoth.stream authNoAuth) bob := by
  refine ⟨⟨authNoAuth, rfl, rfl⟩, rfl, fun h => ?_⟩
  have halice : AuthStore.user twoUsers.auth "alice".toList = some Router.exampleUser := rfl
  let handshake : Handshake twoUsers.auth twoUsers.options :=
    ⟨bobWithBoth.greeting, .noAuth, .noAuth rfl (by decide), Router.exampleUser,
      ⟨"alice".toList, rfl, halice⟩, bobWithBoth.request⟩
  have hbytes : (bobWithBoth.stream authNoAuth).bytes = handshake.encode ++ [] := rfl
  have hrouted : Router.exampleUser = bob :=
    h.decided _ _ _ (decide_of_handshake handshake hbytes fun _ _ => rfl)
  exact absurd hrouted (by decide)

end Socks

end EchProxy
