import EchProxy.Ingress.Authenticated
import EchProxy.Tunnel.Opened

/-! # From the Client's Request to the Server's Dial

    The destination goes through four forms on its way: the bytes of a SOCKS5
    request or the text of an HTTP request target, a host and a port, the
    `Open` frame of a tunnel, and the address the server connects to.  It is
    the same destination all the way: an address is dialed as it was written,
    without a lookup, and a name is looked up by the server as it was written,
    at the port that was written.
-/

namespace EchProxy

open Checked Traced Server

variable {Pool : Type}

/-! ## What the server does with a host and a port -/

/-- The server keeps to this host and this port. -/
structure DestinationKept (host : Text) (port : UInt16) (s : ServerState) : Prop where
  /-- An address stands for itself. -/
  address : ∀ ip, IpText.std.parse host = some ip →
    s.lookups = [] ∧ ∀ dial ∈ s.dials, dial.1 = ⟨ip, port⟩
  /-- A name is looked up, and nothing is dialed that was not answered. -/
  name : IpText.std.parse host = none →
    (∀ l ∈ s.lookups, l.host = host ∧ l.port = port) ∧
      ∀ dial ∈ s.dials, ∃ addrs, ⟨host, port, .ok addrs⟩ ∈ s.lookups ∧ dial.1 ∈ addrs
  /-- The connection that is relayed is one that was dialed. -/
  connected : ∀ t, s.target = some t → t.addr ∈ s.dials.map Prod.fst

namespace ServerState

section kept
variable {config : ServerConfig} {metadata : MetadataMap} {s : ServerState} {host : Text}
  {port : UInt16} {firstPayload : Bytes}

/-- Everything that is looked up is the name that came in. -/
theorem Guarded.lookup_kept (h : Guarded config metadata s) (htext : config.text = IpText.std)
    (hopen : ∀ target, s.received.head? = some (openFrame target) →
      target = ⟨host, port.toUInt32, firstPayload⟩) :
    ∀ l ∈ s.lookups, IpText.std.parse host = none ∧ l.host = host ∧ l.port = port := by
  intro l hl
  obtain ⟨target, hhead, hlookup⟩ := h.asked l hl
  obtain rfl := hopen target hhead
  obtain ⟨hport, -, hparse, hhost⟩ := lookup_eq_some.mp hlookup
  obtain ⟨hsame, -, -⟩ := checkPort_eq_ok.mp hport
  rw [htext] at hparse
  refine ⟨hparse, hhost, UInt16.toNat_inj.mp ?_⟩
  rw [hsame]
  exact UInt16.toNat_toUInt32 port

/-- Everything that is dialed comes from it. -/
theorem Guarded.destination_kept (h : Guarded config metadata s) (htext : config.text = IpText.std)
    (hopen : ∀ target, s.received.head? = some (openFrame target) →
      target = ⟨host, port.toUInt32, firstPayload⟩) : DestinationKept host port s := by
  have hlookups := h.lookup_kept htext hopen
  -- the addresses behind a dial
  have hsource : ∀ dial ∈ s.dials,
      (∃ ip, IpText.std.parse host = some ip ∧ dial.1 = ⟨ip, port⟩) ∨
        ∃ addrs, ⟨host, port, .ok addrs⟩ ∈ s.lookups ∧ dial.1 ∈ addrs := by
    intro dial hdial
    obtain ⟨target, addrs, hadmitted, hpre⟩ := h.admitted_dialed (List.ne_nil_of_mem hdial)
    have hmem : dial.1 ∈ addrs := hpre.subset (List.mem_map_of_mem hdial)
    obtain rfl := hopen target hadmitted.first_frame
    have hport : port.toUInt32.toUInt16 = port := UInt16.toUInt16_toUInt32 port
    rcases hadmitted.source with ⟨ip, hip, rfl⟩ | hlookup
    · rw [htext] at hip
      rw [List.mem_singleton, hport] at hmem
      exact .inl ⟨ip, hip, hmem⟩
    · rw [hport] at hlookup
      exact .inr ⟨addrs, hlookup, hmem⟩
  refine ⟨fun ip hip => ⟨?_, fun dial hdial => ?_⟩, fun hnone => ⟨fun l hl => ?_, fun dial hdial => ?_⟩,
    fun t ht => ?_⟩
  · refine List.eq_nil_iff_forall_not_mem.mpr fun l hl => ?_
    rw [(hlookups l hl).1] at hip
    cases hip
  · rcases hsource dial hdial with ⟨ip', hip', hdialed⟩ | ⟨addrs, hlookup, -⟩
    · rw [hip, Option.some.injEq] at hip'
      rw [hdialed, hip']
    · rw [(hlookups _ hlookup).1] at hip
      cases hip
  · exact (hlookups l hl).2
  · rcases hsource dial hdial with ⟨ip, hip, -⟩ | hanswered
    · rw [hnone] at hip
      cases hip
    · exact hanswered
  · have hlast := (h.target_passed t ht).1
    exact List.mem_map.mpr ⟨_, List.mem_of_getLast? hlast, rfl⟩

end kept

end ServerState

/-- Any tunnel that is opened with this frame, to a server that reads addresses as
    the standard library does. -/
theorem destinationKept_of_reachable {tunnel : TunnelSetup} {host : Text} {port : UInt16}
    {firstPayload : Bytes} (htarget : tunnel.target = ⟨host, port.toUInt32, firstPayload⟩)
    (htext : tunnel.server.text = IpText.std) {s : TunnelState}
    (hr : (TunnelState.system tunnel).Reachable s) : DestinationKept host port s.server := by
  have hguarded := (ServerState.inv_and_guarded (TunnelState.server_reachable hr)).2
  have hopen : ∀ target, s.server.received.head? = some (openFrame target) →
      target = ⟨host, port.toUInt32, firstPayload⟩ := by
    intro target hhead
    exact ((TunnelState.inv_of_reachable hr).first_frame hhead).trans htarget
  exact hguarded.destination_kept htext hopen

/-! ## What an ingress asks for -/

/-- The `Open` of a relay through a tunnel. -/
def Relay.target (relay : Relay Pool) : Open :=
  ⟨relay.host, relay.port.toUInt32, relay.firstPayload⟩

/-- The only request it makes is for this frame. -/
theorem establish_target (network : Network Pool) (relay : Relay Pool) :
    Only (establish network relay) fun e => ∀ pool target, e = .request pool target →
      target = relay.target := by
  rw [establish]
  split
  · refine (connectDirect_only _ _ _).mono fun e he pool target heq => ?_
    rw [heq] at he
    cases he
  · refine (openTunnel_only _ _ _).mono fun e he pool target heq => ?_
    rcases he with rfl | rfl
    · exact (IngressEvent.request.inj heq).2.symm
    · cases heq

/-- A write is no request. -/
theorem not_request_of_write {e : IngressEvent Pool} (hwrite : e.isWrite = true) {pool : Pool}
    {target : Open} : e ≠ .request pool target := by
  rintro rfl
  cases hwrite

/-- The router makes no request. -/
theorem decideRoute_no_request (router : Router Pool) (network : Network Pool) (user : UserProfile)
    (host : Text) (port : UInt16) {pool : Pool} {target : Open} :
    .request pool target ∉ (decideRoute router network user host port).events := by
  intro hmem
  rcases decideRoute_only router network user host port _ hmem with hdecide | ⟨l, hlookup⟩
  · cases hdecide
  · cases hlookup

namespace Socks

/-- A SOCKS5 client gets the tunnel it asked for. -/
theorem target_of_request {setup : Setup Pool} {client : ClientStream} {pool : Pool} {target : Open}
    (h : .request pool target ∈ (handle setup client).events) :
    ∃ (handshake : Handshake setup.auth setup.options) (rest : Bytes),
      client.bytes = handshake.encode ++ rest ∧
      target = ⟨handshake.request.destination.host, handshake.request.port.toUInt32, []⟩ := by
  rw [handle, mem_bind_iff] at h
  rcases h with hwrite | ⟨⟨⟨user, host, port⟩, rest⟩, haccept, hconnect⟩
  · exact absurd rfl (not_request_of_write (accept_records client.bytes _ hwrite))
  · obtain ⟨handshake, hbytes, houtcome⟩ := handshake_of_accept haccept
    obtain ⟨-, hhost⟩ := Prod.mk.inj houtcome
    obtain ⟨rfl, rfl⟩ := Prod.mk.inj hhost
    refine ⟨handshake, rest, hbytes, ?_⟩
    refine connect_rule (P := fun e => ∀ pool target, e = .request pool target → target = _)
      setup client user _ _ rest ?_ ?_ ?_ ?_ ?_ _ hconnect pool target rfl
    · intro pool target heq
      cases heq
    · intro l pool target heq
      cases heq
    · intro reply pool target heq
      cases heq
    · intro pool target heq
      cases heq
    · intro decision _
      exact establish_target _ _

end Socks

namespace Http

/-- The destination and the first payload that the client's request stands for. -/
inductive Names (client : ClientStream) : Text → UInt16 → Bytes → Prop where
  | connect {head rest : Bytes} {request : RequestParts} {host : Text} {port : UInt16}
      (hhead : readHeader client = .ok (head, rest)) (hparsed : parseRequest head = .ok request)
      (hmethod : Str.eqIgnoreAsciiCase request.method "CONNECT".toList = true)
      (hauthority : parseAuthority request.target 443 = .ok (host, port)) :
      Names client host port []
  | absolute {head rest : Bytes} {request : RequestParts} {absolute : AbsoluteUri}
      (hhead : readHeader client = .ok (head, rest)) (hparsed : parseRequest head = .ok request)
      (hmethod : Str.eqIgnoreAsciiCase request.method "CONNECT".toList = false)
      (huri : parseAbsoluteUri request.target = .ok absolute) :
      Names client absolute.host
        (absolute.port.getD (if absolute.scheme = "https".toList then 443 else 80))
        (Text.asBytes (rewriteAbsoluteRequest request absolute))

theorem startRelay_request {setup : Setup Pool} {relay : Relay Pool} {pool : Pool} {target : Open}
    (h : .request pool target ∈ (startRelay setup relay).events) : target = relay.target := by
  rw [startRelay, mem_bind_iff] at h
  rcases h with hestablish | ⟨_, -, hrelaying⟩
  · exact establish_target _ _ _ hestablish pool target rfl
  · rcases mem_emit_bind.mp hrelaying with heq | hnone
    · cases heq
    · cases hnone

/-- So does an HTTP client. -/
theorem target_of_request {setup : Setup Pool} {client : ClientStream} {pool : Pool} {target : Open}
    (h : .request pool target ∈ (handle setup client).events) :
    ∃ host port firstPayload, Names client host port firstPayload ∧
      target = ⟨host, port.toUInt32, firstPayload⟩ := by
  rw [handle, mem_bind_iff] at h
  rcases h with hwrite | ⟨⟨user, request, rest⟩, haccept, hbranch⟩
  · exact absurd rfl (not_request_of_write (accept_only setup client _ hwrite))
  obtain ⟨head, hhead, hparsed, -⟩ := accept_eq_ok.mp haccept
  dsimp only at hbranch
  split at hbranch
  · next hmethod =>
    rw [handleConnect, mem_lift_bind] at hbranch
    obtain ⟨⟨host, port⟩, hauthority, hbranch⟩ := hbranch
    dsimp only at hbranch
    rw [mem_bind_iff] at hbranch
    refine ⟨host, port, [], .connect hhead hparsed hmethod hauthority, ?_⟩
    rcases hbranch with hdecide | ⟨decision, -, hbranch⟩
    · exact absurd hdecide (decideRoute_no_request _ _ _ _ _)
    rcases mem_bind_iff.mp hbranch with hwrite | ⟨_, -, hrelay⟩
    · cases writeAll_only _ _ _ hwrite
    · exact startRelay_request hrelay
  · next hmethod =>
    rw [handleAbsolute, mem_lift_bind] at hbranch
    obtain ⟨absolute, huri, hbranch⟩ := hbranch
    dsimp only at hbranch
    rw [mem_bind_iff] at hbranch
    refine ⟨_, _, _, .absolute hhead hparsed (by simpa using hmethod) huri, ?_⟩
    rcases hbranch with hdecide | ⟨decision, -, hrelay⟩
    · exact absurd hdecide (decideRoute_no_request _ _ _ _ _)
    · exact startRelay_request hrelay

end Http

/-! ## The whole way -/

/-- Every tunnel for this frame keeps to this host and this port, in every state of
    every run. -/
def ReachesOnly (target : Open) (host : Text) (port : UInt16) : Prop :=
  ∀ tunnel : TunnelSetup, tunnel.target = target → tunnel.server.text = IpText.std →
    ∀ s, (TunnelState.system tunnel).Reachable s → DestinationKept host port s.server

/-- **The server connects to the destination the client wrote**, whatever the
    client sends on either ingress, and whatever happens in the tunnel: the `Open`
    holds the host and the port of the request, and the server keeps to them.  An
    address of a SOCKS5 request is dialed as it is, though it travels as a text. -/
theorem destination_preserved :
    (∀ (setup : Socks.Setup Pool) (client : ClientStream) (pool : Pool) (target : Open),
      .request pool target ∈ (Socks.handle setup client).events →
      ∃ (handshake : Socks.Handshake setup.auth setup.options) (rest : Bytes),
        client.bytes = handshake.encode ++ rest ∧
        target = ⟨handshake.request.destination.host, handshake.request.port.toUInt32, []⟩ ∧
        ReachesOnly target handshake.request.destination.host handshake.request.port ∧
        ∀ ip, handshake.request.destination.ip = some ip →
          IpText.std.parse handshake.request.destination.host = some ip) ∧
      ∀ (setup : Http.Setup Pool) (client : ClientStream) (pool : Pool) (target : Open),
        .request pool target ∈ (Http.handle setup client).events →
        ∃ host port firstPayload, Http.Names client host port firstPayload ∧
          target = ⟨host, port.toUInt32, firstPayload⟩ ∧ ReachesOnly target host port := by
  refine ⟨fun setup client pool target hrequest => ?_, fun setup client pool target hrequest => ?_⟩
  · obtain ⟨handshake, rest, hbytes, rfl⟩ := Socks.target_of_request hrequest
    refine ⟨handshake, rest, hbytes, rfl, fun tunnel htarget htext s hr => ?_, fun ip hip => ?_⟩
    · exact destinationKept_of_reachable htarget htext hr
    · exact Socks.Destination.parse_host hip
  · obtain ⟨host, port, firstPayload, hnames, rfl⟩ := Http.target_of_request hrequest
    refine ⟨host, port, firstPayload, hnames, rfl, fun tunnel htarget htext s hr => ?_⟩
    exact destinationKept_of_reachable htarget htext hr

/-- A client that asks for 8.8.8.8:443. -/
def exampleAddressHandshake : Socks.Handshake Socks.exampleSetup.auth Socks.exampleSetup.options :=
  Socks.exampleHandshakeTo (.ipv4 (.new 8 8 8 8))

/-- The tunnel it gets. -/
def exampleAddressTunnel : TunnelSetup :=
  { exampleSetup with target := ⟨"8.8.8.8".toList, 443, []⟩ }

/-- Its server dials, and keeps to what was asked for. -/
theorem destination_preserved_example :
    ∃ (handshake : Socks.Handshake Socks.exampleSetup.auth Socks.exampleSetup.options)
        (s : TunnelState),
      exampleAddressTunnel.target =
        ⟨handshake.request.destination.host, handshake.request.port.toUInt32, []⟩ ∧
      (TunnelState.system exampleAddressTunnel).Reachable s ∧
      s.server.dials.map Prod.fst = [⟨.v4 (.new 8 8 8 8), 443⟩] ∧
      DestinationKept handshake.request.destination.host handshake.request.port s.server := by
  let ls : List TunnelLabel :=
    [.client .sendOpen, .client .tokenOk, .pumpUp, .server .authenticate, .client .callOk,
      .server (.recv (some (.ok (openFrame exampleAddressTunnel.target)))),
      .server (.resolve (.error "not asked")), .server (.dial (.connected none))]
  obtain ⟨s, hrun⟩ : ∃ s, (TunnelState.system exampleAddressTunnel).run
      (.fresh exampleAddressTunnel) ls = some s := ⟨_, rfl⟩
  have hseen : ((TunnelState.system exampleAddressTunnel).run (.fresh exampleAddressTunnel) ls).map
      (fun s => s.server.dials.map Prod.fst) = some [⟨.v4 (.new 8 8 8 8), 443⟩] := rfl
  rw [hrun, Option.map_some, Option.some.injEq] at hseen
  have hr : (TunnelState.system exampleAddressTunnel).Reachable s :=
    Lts.System.reachable_of_run (.init rfl) hrun
  obtain ⟨handshake, rest, -, htarget, hreaches, -⟩ := destination_preserved.1 Socks.exampleSetup
    (Socks.exampleClient exampleAddressHandshake.encode) 7 ⟨"8.8.8.8".toList, 443, []⟩ (by decide)
  exact ⟨handshake, s, htarget, hr, hseen, hreaches exampleAddressTunnel rfl rfl s hr⟩

end EchProxy
