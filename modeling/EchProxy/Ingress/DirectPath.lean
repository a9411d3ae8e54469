import EchProxy.Http.Handle
import EchProxy.Socks.Handle

/-! # The Direct Path

    `connect_direct` gets the text of an address that the router has looked up
    in the table, never a name.  So `TcpStream::connect` resolves nothing, and
    what it dials is this address, whatever the resolver would say by then.
-/

namespace EchProxy

open Checked Traced

variable {Pool : Type}

/-! ## What is promised -/

/-- The router has classified `addr` for a target: it is in the table, and it is
    the literal the client named or an answer of the router's own lookup. -/
structure Classified (router : Router Pool) (dns : Dns) (host : Text) (port : UInt16)
    (addr : SocketAddr) : Prop where
  port_eq : addr.port = port
  inSet : router.InSet addr.ip
  source : IpText.std.parse host = some addr.ip ∨
    ∃ addrs, dns ⟨host, port.toNat⟩ = .ok addrs ∧ addr.ip ∈ addrs.map SocketAddr.ip

/-- Every direct connection of a trace is to an address that was classified for a
    target the client requested, and no name is resolved for it. -/
structure DirectInTable (router : Router Pool) (dns : Dns) (Requested : Text → UInt16 → Prop)
    (events : List (IngressEvent Pool)) : Prop where
  classified : ∀ addr, .dial addr ∈ events ∨ .connected addr ∈ events →
    ∃ host port, Requested host port ∧ Classified router dns host port addr
  unresolved : ∀ l, .resolve l ∉ events

/-! ## Connecting to what was decided -/

section establish
variable {router : Router Pool} {network : Network Pool} {user : UserProfile}
  {host : Text} {port : UInt16}

/-- A direct decision is the text of a classified address. -/
theorem literal_of_decide {connectHost : Text}
    (h : (router.decide IpText.std network.dns user host port.toNat).result =
      .ok (.direct connectHost)) :
    ∃ ip, IpText.std.parse connectHost = some ip ∧
      Classified router network.dns host port ⟨ip, port⟩ := by
  rcases Router.directTo_of_decide h with
    ⟨-, rfl, ip, hparse, hin⟩ | ⟨-, addrs, hall, addr, hmem, rfl⟩
  · exact ⟨ip, hparse, rfl, hin, .inl hparse⟩
  · -- to text and back
    have hparse : IpText.std.parse (IpText.std.display addr.ip) = some addr.ip :=
      IpText.parse_display addr.ip
    exact ⟨addr.ip, hparse, rfl, hall.2.2 addr hmem,
      .inr ⟨addrs, hall.1, List.mem_map.mpr ⟨addr, hmem, rfl⟩⟩⟩

/-- A literal is dialled as it is. -/
theorem connectDirect_literal {connectHost : Text} {ip : IpAddr} (network : Network Pool)
    (port : UInt16) (h : IpText.std.parse connectHost = some ip) :
    connectDirect network connectHost port =
      tryAddrs network "could not resolve to any address" [⟨ip, port⟩] := by
  rw [connectDirect, connectAddrs, h]
  rfl

/-- `e` is no part of a direct connection, or of one to a classified address. -/
def DirectOk (router : Router Pool) (dns : Dns) (Requested : Text → UInt16 → Prop)
    (e : IngressEvent Pool) : Prop :=
  e.isDirect = true → ∃ host port addr, Requested host port ∧
    Classified router dns host port addr ∧ (e = .dial addr ∨ e = .connected addr)

theorem establish_directOk {decision : RouteDecision Pool} {Requested : Text → UInt16 → Prop}
    (h : (router.decide IpText.std network.dns user host port.toNat).result = .ok decision)
    (hrequested : Requested host port) (firstPayload rest : Bytes) :
    Only (establish network ⟨decision, host, port, firstPayload, rest⟩)
      (DirectOk router network.dns Requested) := by
  cases decision with
  | direct connectHost =>
    obtain ⟨ip, hparse, hclassified⟩ := literal_of_decide h
    have hconnect := connectDirect_literal network port hparse
    show Only (connectDirect network connectHost port) _
    rw [hconnect]
    refine (tryAddrs_only network _ _).mono fun e ⟨addr, hmem, he⟩ _ => ?_
    obtain rfl := List.mem_singleton.mp hmem
    exact ⟨host, port, _, hrequested, hclassified, he⟩
  | proxy pool =>
    refine (openTunnel_only _ _ _).mono fun e he hdirect => ?_
    rcases he with rfl | rfl <;> cases hdirect

/-- The name lookup of `TcpStream::connect` does not matter. -/
theorem establish_connectDns {decision : RouteDecision Pool}
    (h : (router.decide IpText.std network.dns user host port.toNat).result = .ok decision)
    (firstPayload rest : Bytes) (connectDns : Dns) :
    establish { network with connectDns } ⟨decision, host, port, firstPayload, rest⟩ =
      establish network ⟨decision, host, port, firstPayload, rest⟩ := by
  cases decision with
  | direct connectHost =>
    obtain ⟨ip, hparse, -⟩ := literal_of_decide h
    have hother := connectDirect_literal { network with connectDns } port hparse
    have hthis := connectDirect_literal network port hparse
    exact hother.trans hthis.symm
  | proxy pool => rfl

/-- A trace of which every event is in order. -/
theorem directInTable_of_only {α : Type} {x : Ingress Pool α} {dns : Dns}
    {Requested : Text → UInt16 → Prop} (h : Only x (DirectOk router dns Requested)) :
    DirectInTable router dns Requested x.events where
  classified := by
    intro addr hmem
    rcases hmem with hdial | hconnected
    · obtain ⟨host, port, addr', hrequested, hclassified, heq | heq⟩ := h _ hdial rfl
      · obtain rfl := IngressEvent.dial.inj heq
        exact ⟨host, port, hrequested, hclassified⟩
      · cases heq
    · obtain ⟨host, port, addr', hrequested, hclassified, heq | heq⟩ := h _ hconnected rfl
      · cases heq
      · obtain rfl := IngressEvent.connected.inj heq
        exact ⟨host, port, hrequested, hclassified⟩
  unresolved := by
    intro l hmem
    obtain ⟨host, port, addr, -, -, heq | heq⟩ := h _ hmem rfl <;> cases heq

/-- The events of `decideRoute` are no connection. -/
theorem decideRoute_directOk {dns : Dns} {Requested : Text → UInt16 → Prop} :
    Only (decideRoute router network user host port) (DirectOk router dns Requested) := by
  refine (decideRoute_only _ _ _ _ _).mono fun e he hdirect => ?_
  rcases he with rfl | ⟨l, rfl⟩ <;> cases hdirect

end establish

/-! ## SOCKS5 -/

namespace Socks

/-- The target of the client's request. -/
def Requested (setup : Setup Pool) (client : ClientStream) (host : Text) (port : UInt16) : Prop :=
  ∃ user rest, (accept client setup.auth setup.options client.bytes : Ingress Pool _).result =
    .ok ((user, host, port), rest)

theorem handle_directInTable (setup : Setup Pool) (client : ClientStream) :
    DirectInTable setup.router setup.network.dns (Requested setup client)
      (handle setup client).events := by
  apply directInTable_of_only
  refine Only.bind ?_ fun p hp => ?_
  · refine Only.mono (accept_records client.bytes) fun e hwrite hdirect => ?_
    cases e with
    | write => cases hdirect
    | _ => cases hwrite
  · obtain ⟨⟨user, host, port⟩, rest⟩ := p
    have hrequested : Requested setup client host port := ⟨user, rest, hp⟩
    apply connect_rule
    · intro hdirect
      cases hdirect
    · intro l hdirect
      cases hdirect
    · intro reply hdirect
      cases hdirect
    · intro hdirect
      cases hdirect
    · intro decision hdecision
      exact establish_directOk hdecision hrequested [] rest

theorem handle_connectDns (setup : Setup Pool) (client : ClientStream) (connectDns : Dns) :
    handle { setup with network := { setup.network with connectDns } } client =
      handle setup client := by
  refine bind_congr fun p _ => ?_
  obtain ⟨⟨user, host, port⟩, rest⟩ := p
  refine bind_congr fun decision hdecision => ?_
  have hdecided : (setup.router.decide IpText.std setup.network.dns user host port.toNat).result =
      .ok decision := by rwa [decideRoute_result] at hdecision
  have hestablish := establish_connectDns hdecided [] rest connectDns
  have hreply : connectAndReply { setup.network with connectDns } client
      ⟨decision, host, port, [], rest⟩ =
      connectAndReply setup.network client ⟨decision, host, port, [], rest⟩ := by
    simp only [connectAndReply, hestablish]
  dsimp only
  rw [hreply]

end Socks

/-! ## HTTP -/

namespace Http

/-- The host and the port that a request names, in its form of target. -/
def target (request : RequestParts) : Eval (Text × UInt16) :=
  if Str.eqIgnoreAsciiCase request.method "CONNECT".toList then parseAuthority request.target 443
  else do
    let uri ← parseAbsoluteUri request.target
    return (uri.host, uri.port.getD (if uri.scheme = "https".toList then 443 else 80))

/-- The target of the client's request. -/
def Requested (setup : Setup Pool) (client : ClientStream) (host : Text) (port : UInt16) : Prop :=
  ∃ user request rest, (accept setup client).result = .ok (user, request, rest) ∧
    target request = .ok (host, port)

theorem startRelay_directOk {setup : Setup Pool} {relay : Relay Pool}
    {Requested : Text → UInt16 → Prop}
    (h : Only (establish setup.network relay) (DirectOk setup.router setup.network.dns Requested)) :
    Only (startRelay setup relay) (DirectOk setup.router setup.network.dns Requested) := by
  refine Only.bind h fun _ _ => ?_
  refine Only.bind (Only.emit fun hdirect => ?_) fun _ _ => Only.pure _
  cases hdirect

theorem handle_directInTable (setup : Setup Pool) (client : ClientStream) :
    DirectInTable setup.router setup.network.dns (Requested setup client)
      (handle setup client).events := by
  apply directInTable_of_only
  refine Only.bind ?_ fun p hp => ?_
  · refine (accept_only setup client).mono fun e hwrite hdirect => ?_
    cases e with
    | write => cases hdirect
    | _ => cases hwrite
  · obtain ⟨user, request, rest⟩ := p
    dsimp only
    split
    · next hconnect =>
      -- CONNECT: the authority of the request line is what was requested
      refine Only.bind (Only.lift _) fun t ht => ?_
      have hrequested : Requested setup client t.1 t.2 := by
        refine ⟨user, request, rest, hp, ?_⟩
        rw [target, if_pos hconnect]
        exact ht
      refine Only.bind decideRoute_directOk fun decision hdecision => ?_
      rw [decideRoute_result] at hdecision
      refine Only.bind ((writeAll_only client _).mono fun e he hdirect => ?_) fun _ _ => ?_
      · rw [he] at hdirect
        cases hdirect
      · exact startRelay_directOk (establish_directOk hdecision hrequested [] rest)
    · next hconnect =>
      -- absolute-form: the host and the port of the URI are
      refine Only.bind (Only.lift _) fun uri huri => ?_
      rw [lift_result] at huri
      have hrequested : Requested setup client uri.host
          (uri.port.getD (if uri.scheme = "https".toList then 443 else 80)) := by
        refine ⟨user, request, rest, hp, ?_⟩
        rw [target, if_neg hconnect, huri]
        rfl
      refine Only.bind decideRoute_directOk fun decision hdecision => ?_
      rw [decideRoute_result] at hdecision
      exact startRelay_directOk (establish_directOk hdecision hrequested _ rest)

theorem startRelay_connectDns (setup : Setup Pool) {user : UserProfile} {host : Text}
    {port : UInt16} {decision : RouteDecision Pool}
    (h : (decideRoute setup.router setup.network user host port).result = .ok decision)
    (firstPayload rest : Bytes) (connectDns : Dns) :
    startRelay { setup with network := { setup.network with connectDns } }
        ⟨decision, host, port, firstPayload, rest⟩ =
      startRelay setup ⟨decision, host, port, firstPayload, rest⟩ := by
  rw [decideRoute_result] at h
  have hestablish := establish_connectDns h firstPayload rest connectDns
  simp only [startRelay, hestablish]

theorem handle_connectDns (setup : Setup Pool) (client : ClientStream) (connectDns : Dns) :
    handle { setup with network := { setup.network with connectDns } } client =
      handle setup client := by
  refine bind_congr fun p _ => ?_
  obtain ⟨user, request, rest⟩ := p
  dsimp only
  split
  · refine bind_congr fun t _ => ?_
    obtain ⟨host, port⟩ := t
    refine bind_congr fun decision hdecision => ?_
    refine bind_congr fun _ _ => ?_
    exact startRelay_connectDns setup hdecision [] rest connectDns
  · refine bind_congr fun uri _ => ?_
    refine bind_congr fun decision hdecision => ?_
    exact startRelay_connectDns setup hdecision _ rest connectDns

end Http

/-! ## Both ingresses -/

/-- **The direct path never dials outside the table**: on either ingress, for every
    client and every network, a direct connection is to an address that the
    router classified for the target requested, and what a second lookup would
    answer changes nothing. -/
theorem direct_in_table :
    (∀ (setup : Socks.Setup Pool) (client : ClientStream),
      DirectInTable setup.router setup.network.dns (Socks.Requested setup client)
        (Socks.handle setup client).events ∧
      ∀ connectDns,
        Socks.handle { setup with network := { setup.network with connectDns } } client =
          Socks.handle setup client) ∧
    ∀ (setup : Http.Setup Pool) (client : ClientStream),
      DirectInTable setup.router setup.network.dns (Http.Requested setup client)
        (Http.handle setup client).events ∧
      ∀ connectDns,
        Http.handle { setup with network := { setup.network with connectDns } } client =
          Http.handle setup client :=
  ⟨fun setup client =>
      ⟨Socks.handle_directInTable setup client, Socks.handle_connectDns setup client⟩,
    fun setup client =>
      ⟨Http.handle_directInTable setup client, Http.handle_connectDns setup client⟩⟩

/-! ## A name whose second lookup differs -/

/-- The router's lookup finds an address of the table, the one of `TcpStream::connect`
    would find another. -/
def rebindingSetup : Socks.Setup Nat :=
  { Socks.exampleSetup with
    network :=
      { Socks.exampleSetup.network with
        dns := fun _ => .ok [⟨.v4 (.new 10 0 0 1), 443⟩]
        connectDns := fun _ => .ok [⟨.v4 (.new 8 8 8 8), 443⟩] } }

theorem exampleName_fits : Text.len "a.example".toList ≤ 255 := by decide

/-- Alice asks for a name. -/
def nameHandshake : Socks.Handshake rebindingSetup.auth rebindingSetup.options :=
  Socks.exampleHandshakeTo (.domain "a.example".toList exampleName_fits)

def nameClient : ClientStream := Socks.exampleClient nameHandshake.encode

theorem nameClient_events :
    (Socks.handle rebindingSetup nameClient).events =
      [.write [0x05, 0x02], .write [0x01, 0x00],
        .decide Router.exampleUser "a.example".toList 443,
        .lookup ⟨"a.example".toList, 443⟩,
        .dial ⟨.v4 (.new 10 0 0 1), 443⟩, .connected ⟨.v4 (.new 10 0 0 1), 443⟩,
        .write (Socks.replyBytes 0x00), .relaying] := by
  have haccept : (Socks.accept nameClient rebindingSetup.auth rebindingSetup.options
      nameClient.bytes : Ingress Nat _) = _ :=
    Socks.accept_of_handshake nameHandshake (List.append_nil _).symm fun _ _ => rfl
  rw [Socks.handle_of_accept haccept]
  rfl

/-- What is dialed is what the router has classified. -/
theorem direct_in_table_rebinding :
    .dial ⟨.v4 (.new 10 0 0 1), 443⟩ ∈ (Socks.handle rebindingSetup nameClient).events ∧
      (∃ host port, Socks.Requested rebindingSetup nameClient host port ∧
        Classified rebindingSetup.router rebindingSetup.network.dns host port
          ⟨.v4 (.new 10 0 0 1), 443⟩) ∧
      ¬ rebindingSetup.router.InSet (.v4 (.new 8 8 8 8)) := by
  have hdial : .dial ⟨.v4 (.new 10 0 0 1), 443⟩ ∈
      (Socks.handle rebindingSetup nameClient).events := by
    rw [nameClient_events]
    simp
  obtain ⟨hdirect, -⟩ := direct_in_table.1 rebindingSetup nameClient
  refine ⟨hdial, hdirect.classified _ (.inl hdial), ?_⟩
  rintro ⟨r, hr, hstart, -⟩
  obtain rfl := List.mem_singleton.mp hr
  revert hstart
  decide

end EchProxy
