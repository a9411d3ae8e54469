import EchProxy.Http.Handle
import EchProxy.Http.Wire
import EchProxy.Ingress.DirectPath
import EchProxy.Tunnel.HalfClose
import EchProxy.Tunnel.Opened

/-! # Several Requests on One Connection

    The handler rewrites the head of the first request; what the client sends
    behind it is relayed as it is.  So what a target gets depends on how many
    requests the client sends on the connection.
-/

namespace EchProxy

open Checked Traced Server

/-! ## What a relay forwards -/

/-- The server behind a pool, and the metadata made of the pool's token. -/
structure Backend where
  server : ServerConfig
  metadata : MetadataMap

namespace Relay

/-- The tunnel of a proxied relay. -/
def tunnel (relay : Relay Backend) (backend : Backend) (targetInput : Bytes) : TunnelSetup where
  server := backend.server
  metadata := backend.metadata
  target := ⟨relay.host, relay.port.toUInt32, relay.firstPayload⟩
  localInput := relay.rest
  targetInput := targetInput

/-- The target of the relay has got `written`. -/
def Forwards (relay : Relay Backend) (written : Bytes) : Prop :=
  match relay.decision with
  | .direct _ => ∃ targetInput s,
      (DirectState.system relay.firstPayload relay.rest targetInput).Reachable s ∧
        written = s.targetWritten
  | .proxy backend => ∃ targetInput s,
      (TunnelState.system (relay.tunnel backend targetInput)).Reachable s ∧
        written = s.server.targetWritten

/-- The backend opens the tunnel, if the relay is by a tunnel. -/
def Opens (relay : Relay Backend) : Prop :=
  ∀ backend, relay.decision = .proxy backend → (relay.tunnel backend []).Opens

section forwards
variable {relay : Relay Backend} {written : Bytes}

theorem prefix_of_forwards (h : relay.Forwards written) :
    written <+: relay.firstPayload ++ relay.rest := by
  rw [Forwards] at h
  split at h
  · obtain ⟨targetInput, s, hr, rfl⟩ := h
    exact DirectState.written_in_order hr
  · obtain ⟨targetInput, s, hr, rfl⟩ := h
    refine (TunnelState.targetWritten_in_order hr).trans ?_
    exact (List.prefix_append_right_inj _).mpr
      ⟨_, (TunnelState.inv_of_reachable hr).client.task.script_split⟩

theorem opens_of_forwards (h : relay.Forwards written) (hne : written ≠ []) : relay.Opens := by
  intro backend hdecision
  rw [Forwards, hdecision] at h
  obtain ⟨targetInput, s, hr, rfl⟩ := h
  have hopens := TunnelState.opens_of_written hr hne
  exact ⟨hopens.let_in, hopens.admits⟩

/-- What is still to be read does not matter to it. -/
theorem Opens.with_rest (h : relay.Opens) (rest : Bytes) :
    ({ relay with rest } : Relay Backend).Opens :=
  fun backend hdecision => ⟨(h backend hdecision).let_in, (h backend hdecision).admits⟩

/-- A relay can forward everything. -/
theorem forwards_all (hopens : relay.Opens) :
    relay.Forwards (relay.firstPayload ++ relay.rest) := by
  rw [Forwards]
  split
  · obtain ⟨s, hr, hq⟩ := DirectState.exists_complete relay.firstPayload relay.rest []
    exact ⟨[], s, hr.of_restrict, (DirectState.calm_complete hr hq).2.1.symm⟩
  · next backend hdecision =>
    obtain ⟨s, hr, hwritten, -⟩ := TunnelState.exists_delivered (hopens backend hdecision)
    exact ⟨[], s, hr, hwritten.symm⟩

end forwards

end Relay

namespace Http

/-! ## What is promised -/

/-- A request line in origin form. -/
def OriginForm (line : Bytes) : Prop :=
  ∃ method path version, line = method ++ 0x20 :: path ++ 0x20 :: version ∧
    0x20 ∉ method ∧ 0x20 ∉ path ∧ path.head? = some 0x2f

/-- How much a relay forwards before the request behind `earlier`. -/
def sentBefore (relay : Relay Backend) : List WireRequest → Nat
  | [] => 0
  | _ :: more => relay.firstPayload.length + (more.flatMap WireRequest.bytes).length

/-- What a target got gives away no credentials of the requests, has the request
    lines it should have, and is for this target. -/
structure KeepsApart (requests : List WireRequest) (relay : Relay Backend) (written : Bytes) :
    Prop where
  no_credentials : ∀ request ∈ requests, ∀ line ∈ request.proxyLines,
    line ∉ Lines.complete 0x0d 0x0a written
  origin_form : ∀ line ∈ Lines.starts true (Lines.complete 0x0d 0x0a written), OriginForm line
  own_target : ∀ earlier request later, requests = earlier ++ request :: later →
    sentBefore relay earlier < written.length →
    relay.host = request.uri.host.named ∧ relay.port.toNat = request.uri.namedPort

/-- A client that sends these requests on one connection. -/
def connection (requests : List WireRequest) (readError : Option String)
    (respond : Bytes → Except String Unit) : ClientStream :=
  ⟨requests.flatMap WireRequest.bytes, readError, respond⟩

/-! ## When the first request is served -/

/-- The network lets a relay begin: an address can be dialled, or the backend
    answers that the tunnel is open. -/
def Begins (network : Network Backend) (relay : Relay Backend) : Prop :=
  match relay.decision with
  | .direct connectHost => ∃ ip, IpText.std.parse connectHost = some ip ∧
      network.dial ⟨ip, relay.port⟩ = .ok ()
  | .proxy backend =>
    let opening := network.opening backend ⟨relay.host, relay.port.toUInt32, relay.firstPayload⟩
    opening.permit = .ok () ∧ opening.tokenOk = true ∧ opening.call = .ok () ∧
      openResult opening.first = .ok ()

/-- The relay of a request, with `rest` behind its head. -/
structure RelayOf (setup : Setup Backend) (request : WireRequest) (rest : Bytes)
    (relay : Relay Backend) : Prop where
  fits : request.bytes.length ≤ maxHeaderSize
  routed : ∃ parts user uri,
    parseRequest request.bytes = .ok parts ∧
    authenticate setup.base64 parts setup.auth = .ok user ∧
    parseAbsoluteUri request.uri.text = .ok uri ∧
    relay.host = uri.host ∧ uri.port = some relay.port ∧
    relay.firstPayload = Text.asBytes (rewriteAbsoluteRequest parts uri) ∧
    (setup.router.decide IpText.std setup.network.dns user relay.host relay.port.toNat).result =
      .ok relay.decision
  begins : Begins setup.network relay
  rest_eq : relay.rest = rest

/-- A request alone on its connection is served: it is authenticated, routed, and
    its target is reached. -/
def Served (setup : Setup Backend) (request : WireRequest) : Prop :=
  ∃ relay, RelayOf setup request [] relay ∧ relay.Opens

section handle
variable {setup : Setup Backend} {request : WireRequest} {rest : Bytes} {relay : Relay Backend}

theorem tryAddrs_iff (network : Network Backend) (lastErr : String) (addr : SocketAddr) :
    (tryAddrs network lastErr [addr]).result = .ok () ↔ network.dial addr = .ok () := by
  rw [tryAddrs, emit_bind]
  cases network.dial addr with
  | ok _ => exact ⟨fun _ => rfl, fun _ => rfl⟩
  | error err => exact ⟨fun h => (by cases h), fun h => (by cases h)⟩

theorem openTunnel_iff (opening : Opening) (backend : Backend) (target : Open) :
    (openTunnel opening backend target).result = .ok () ↔
      opening.permit = .ok () ∧ opening.tokenOk = true ∧ opening.call = .ok () ∧
        openResult opening.first = .ok () := by
  obtain ⟨permit, tokenOk, call, first⟩ := opening
  rw [openTunnel]
  cases permit with
  | error err => exact ⟨fun h => (by cases h), fun h => (by cases h.1)⟩
  | ok _ =>
    cases tokenOk with
    | false => exact ⟨fun h => (by cases h), fun h => (by cases h.2.1)⟩
    | true =>
      cases call with
      | error err => exact ⟨fun h => (by cases h), fun h => (by cases h.2.2.1)⟩
      | ok _ =>
        have hrun : (openTunnel ⟨.ok (), true, .ok (), first⟩ backend target).result =
            ((liftM (relayResult (openResult first)) : Ingress Backend Unit) >>=
              fun _ => emit (.opened backend)).result := rfl
        rw [openTunnel] at hrun
        rw [hrun, result_bind, lift_result]
        cases openResult first with
        | error err => exact ⟨fun h => (by cases h), fun h => (by cases h.2.2.2)⟩
        | ok _ => exact ⟨fun _ => ⟨rfl, rfl, rfl, rfl⟩, fun _ => rfl⟩

/-- A relay of a decision begins where the network lets it. -/
theorem establish_iff (router : Router Backend) (network : Network Backend)
    (relay : Relay Backend) {user : UserProfile}
    (hdecide : (router.decide IpText.std network.dns user relay.host relay.port.toNat).result =
      .ok relay.decision) :
    (establish network relay).result = .ok () ↔ Begins network relay := by
  rw [establish, Begins]
  cases hdecision : relay.decision with
  | direct connectHost =>
    rw [hdecision] at hdecide
    obtain ⟨ip, hparse, -⟩ := literal_of_decide hdecide
    dsimp only
    rw [connectDirect_literal network relay.port hparse, tryAddrs_iff, hparse]
    constructor
    · intro h
      exact ⟨ip, rfl, h⟩
    · rintro ⟨_, hip, h⟩
      cases hip
      exact h
  | proxy backend => exact openTunnel_iff _ _ _

theorem accept_iff {client : ClientStream} {user : UserProfile} {parts : RequestParts}
    {behind : Bytes} (hbytes : client.bytes = request.bytes ++ rest) :
    (accept setup client).result = .ok (user, parts, behind) ↔
      request.bytes.length ≤ maxHeaderSize ∧ parseRequest request.bytes = .ok parts ∧
        authenticate setup.base64 parts setup.auth = .ok user ∧ behind = rest := by
  rw [accept_eq_ok, readHeader_request hbytes]
  by_cases hfits : request.bytes.length ≤ maxHeaderSize
  · rw [if_pos hfits]
    constructor
    · intro ⟨head, hhead, hparse, hauth⟩
      obtain ⟨rfl, rfl⟩ := Prod.mk.inj (Except.ok.inj hhead)
      exact ⟨hfits, hparse, hauth, rfl⟩
    · rintro ⟨-, hparse, hauth, rfl⟩
      exact ⟨request.bytes, rfl, hparse, hauth⟩
  · rw [if_neg hfits]
    constructor
    · intro ⟨head, hhead, _⟩
      cases hhead
    · intro ⟨hfits', _⟩
      exact absurd hfits' hfits

/-- **The handler's relay**: it returns one exactly for a request that it serves. -/
theorem handle_iff {client : ClientStream} (hbytes : client.bytes = request.bytes ++ rest) :
    (handle setup client).result = .ok relay ↔ RelayOf setup request rest relay := by
  have hmethod : ¬ Str.eqIgnoreAsciiCase request.method "CONNECT".toList = true := by
    rw [request.method_form]
    exact Bool.false_ne_true
  rw [handle, result_bind, Result.bind_eq_ok]
  constructor
  · rintro ⟨⟨user, parts, behind⟩, haccept, h⟩
    obtain ⟨hfits, hparse, hauth, rfl⟩ := (accept_iff hbytes).mp haccept
    obtain ⟨hsame, htarget⟩ := words_of_parseRequest hparse
    dsimp only at h
    rw [hsame, if_neg hmethod, handleAbsolute, htarget, result_bind, lift_result,
      Result.bind_eq_ok] at h
    obtain ⟨uri, huri, h⟩ := h
    obtain ⟨-, -, -, port, -, hport, -⟩ := cut_of_parseAbsoluteUri huri
    dsimp only at h
    rw [hport, Option.getD_some, result_bind, decideRoute_result, Result.bind_eq_ok] at h
    obtain ⟨decision, hdecide, h⟩ := h
    rw [startRelay, result_bind, Result.bind_eq_ok] at h
    obtain ⟨_, hestablish, h⟩ := h
    rw [emit_bind] at h
    obtain rfl := Except.ok.inj h
    have hbegins := (establish_iff setup.router setup.network
      ⟨decision, uri.host, port, _, behind⟩ hdecide).mp hestablish
    -- what each stage has returned is what the relay is made of
    exact {
      fits := hfits
      routed := ⟨parts, user, uri, hparse, hauth, huri, rfl, hport, rfl, hdecide⟩
      begins := hbegins
      rest_eq := rfl }
  · rintro ⟨hfits, ⟨parts, user, uri, hparse, hauth, huri, hhost, hport, hpayload, hdecide⟩,
      hbegins, hrest⟩
    obtain ⟨hsame, htarget⟩ := words_of_parseRequest hparse
    have hestablish := (establish_iff setup.router setup.network relay hdecide).mpr hbegins
    obtain ⟨decision, host, port, firstPayload, rest'⟩ := relay
    obtain ⟨rfl, rfl, rfl⟩ : host = uri.host ∧ firstPayload = _ ∧ rest' = rest :=
      ⟨hhost, hpayload, hrest⟩
    refine ⟨(user, parts, rest'), (accept_iff hbytes).mpr ⟨hfits, hparse, hauth, rfl⟩, ?_⟩
    dsimp only
    rw [hsame, if_neg hmethod, handleAbsolute, htarget, result_bind, lift_result,
      Result.bind_eq_ok]
    refine ⟨uri, huri, ?_⟩
    dsimp only
    rw [hport, Option.getD_some, result_bind, decideRoute_result, Result.bind_eq_ok]
    refine ⟨decision, hdecide, ?_⟩
    rw [startRelay, result_bind, Result.bind_eq_ok]
    exact ⟨(), hestablish, rfl⟩

/-- What a relay does not take off the stream does not matter to it. -/
theorem RelayOf.with_rest (h : RelayOf setup request rest relay) (rest' : Bytes) :
    RelayOf setup request rest' { relay with rest := rest' } where
  fits := h.fits
  routed := h.routed
  begins := h.begins
  rest_eq := rfl

end handle

/-! ## The first payload -/

section payload
variable {setup : Setup Backend} {request : WireRequest} {rest : Bytes} {relay : Relay Backend}

theorem space_not_token {t : Text} (h : ∀ c ∈ t, isTokenChar c = true) : ' ' ∉ t ∧ ':' ∉ t :=
  ⟨not_mem_of_class h (by decide), not_mem_of_class h (by decide)⟩

/-- A text whose bytes are those of a header line begins with the header's name. -/
theorem name_of_line {t : Text} {header : WireHeader} (h : Text.asBytes t = header.line) :
    ∃ v, t = header.name ++ ':' :: v := by
  obtain ⟨u, v, rfl, hu, -⟩ := Text.split_asBytes (show ':'.toNat < 0x80 by decide) t
    (Text.asBytes header.name) header.value h
  exact ⟨v, by rw [Text.asBytes_inj hu]⟩

/-- The lines of a rewritten head are no header lines for the proxy. -/
theorem rewritten_no_credentials {parts : RequestParts} {uri : AbsoluteUri} {header : WireHeader}
    (hparsed : RequestParsed (rewritten parts uri)) (hmethod : ∀ c ∈ parts.method, isTokenChar c = true)
    (hproxy : isProxyHeader header.name = true) :
    header.line ∉ (headLines (rewritten parts uri)).map Text.asBytes := by
  obtain ⟨hspace, hcolon⟩ := space_not_token header.name_spelled
  intro hmem
  obtain ⟨t, ht, hline⟩ := List.mem_map.mp hmem
  obtain ⟨v, rfl⟩ := name_of_line hline
  rcases List.mem_cons.mp ht with hrequest | hheader
  · -- a space comes first in the request line
    rw [requestLine, List.append_assoc] at hrequest
    obtain ⟨-, hmark⟩ := Lines.eq_of_cut hrequest.symm hspace (space_not_token hmethod).2
    exact absurd hmark (by decide)
  · obtain ⟨kept, hkept, htext⟩ := List.mem_map.mp hheader
    have hfields := hparsed.headers kept hkept
    obtain ⟨hname, -⟩ := Lines.eq_of_cut htext hcolon hfields.colon
    have hnot := not_proxyHeader_of_rewritten hkept
    rw [hname, hproxy] at hnot
    cases hnot

/-- The request line of a rewritten head is in origin form. -/
theorem rewritten_originForm {parts : RequestParts} {uri : AbsoluteUri}
    (hparsed : RequestParsed (rewritten parts uri)) (hpath : uri.path.head? = some '/') :
    OriginForm (Text.asBytes (requestLine (rewritten parts uri))) := by
  have hspace : ∀ t : Text, IsWord t → (0x20 : UInt8) ∉ Text.asBytes t := by
    intro t ht hmem
    have hchar : Char.ofNat (0x20 : UInt8).toNat ∈ t := Text.mem_of_mem_asBytes hmem (by decide)
    have hnot := ht.2 _ hchar
    cases hnot
  obtain ⟨path, hcons⟩ := List.head?_eq_some_iff.mp hpath
  refine ⟨Text.asBytes parts.method, Text.asBytes uri.path, Text.asBytes parts.version, ?_,
    hspace _ hparsed.method, hspace _ hparsed.target, by rw [hcons]; rfl⟩
  simp only [requestLine, rewritten, Text.asBytes_append, Text.asBytes_cons]
  rfl

/-- The lines of the first payload: one in origin form, and none for the proxy. -/
structure PayloadLines (payload : Bytes) (first : Bytes) (lines : List Bytes) : Prop where
  payload_eq : payload = Lines.join 0x0d 0x0a (first :: lines ++ [[]])
  unbroken : ∀ line ∈ first :: lines, Lines.Unbroken 0x0d 0x0a line ∧ line ≠ []
  origin_form : OriginForm first
  no_credentials : ∀ header : WireHeader, isProxyHeader header.name = true →
    header.line ∉ first :: lines

theorem payloadLines_of_relayOf (h : RelayOf setup request rest relay) :
    ∃ first lines, PayloadLines relay.firstPayload first lines := by
  obtain ⟨parts, user, uri, hparse, -, huri, -, -, hpayload, -⟩ := h.routed
  obtain ⟨hmethod, htarget⟩ := words_of_parseRequest hparse
  obtain ⟨-, hpath, -⟩ := cut_of_parseAbsoluteUri huri
  have hparsed : RequestParsed (rewritten parts uri) :=
    rewritten_parsed (parsed_of_parseRequest hparse) (htarget ▸ huri)
  refine ⟨_, ((rewritten parts uri).headers.map headerText).map Text.asBytes, ?_, ?_,
    rewritten_originForm hparsed hpath, ?_⟩
  · rw [hpayload, rewriteAbsoluteRequest_eq_render, render, join_asBytes, List.map_append]
    rfl
  · intro line hmem
    have hline : line ∈ (headLines (rewritten parts uri)).map Text.asBytes := hmem
    obtain ⟨t, ht, rfl⟩ := List.mem_map.mp hline
    obtain ⟨hunbroken, hne⟩ := headLines_unbroken hparsed t ht
    exact ⟨unbroken_asBytes hunbroken, fun hnil => hne (Text.asBytes_eq_nil.mp hnil)⟩
  · intro header hproxy
    refine rewritten_no_credentials hparsed ?_ hproxy
    rw [hmethod]
    exact request.method_spelled

end payload

/-! ## One request, and more -/

section connection
variable {setup : Setup Backend} {request second : WireRequest} {requests : List WireRequest}
  {rest written : Bytes} {relay : Relay Backend}

theorem keepsApart_nil (requests : List WireRequest) (relay : Relay Backend) :
    KeepsApart requests relay [] where
  no_credentials := fun _ _ _ _ hmem => by cases hmem
  origin_form := fun _ hmem => by cases hmem
  own_target := fun _ _ _ _ hlt => absurd hlt (Nat.not_lt_zero _)

/-- The complete lines of what is written of a block are lines of it. -/
theorem complete_of_prefix {lines : List Bytes}
    (hlines : ∀ line ∈ lines, Lines.Unbroken 0x0d 0x0a line ∧ line ≠ [])
    (h : written <+: Lines.join 0x0d 0x0a (lines ++ [[]])) :
    Lines.complete 0x0d 0x0a written <+: lines ++ [[]] := by
  have hcomplete : Lines.complete 0x0d 0x0a written <+: Lines.complete 0x0d 0x0a _ :=
    Lines.complete_prefix h
  rwa [Lines.complete_join (by decide)
    (Lines.unbroken_block fun line hmem => (hlines line hmem).1)] at hcomplete

/-- **One request** that is written in full is kept apart. -/
theorem keepsApart_single (hrelay : RelayOf setup request [] relay) (hfull : request.uri.InFull)
    (hforwards : relay.Forwards written) : KeepsApart [request] relay written := by
  obtain ⟨first, lines, hlines⟩ := payloadLines_of_relayOf hrelay
  have hpre := Relay.prefix_of_forwards hforwards
  rw [hrelay.rest_eq, List.append_nil, hlines.payload_eq] at hpre
  have hcomplete := complete_of_prefix hlines.unbroken hpre
  refine ⟨?_, ?_, ?_⟩
  · intro request' _ line hline hmem
    obtain ⟨header, hheader, rfl⟩ := List.mem_map.mp hline
    have hproxy := (List.mem_filter.mp hheader).2
    -- a line that was written is one of the payload, or the blank one at its end
    rcases List.mem_append.mp (hcomplete.subset hmem) with hmem | hblank
    · exact hlines.no_credentials header hproxy hmem
    · have hnil := List.mem_singleton.mp hblank
      simp [WireHeader.line] at hnil
  · intro line hmem
    have hstarts := Lines.starts_prefix hcomplete true
    -- the lines are one block, with its first line as the only start
    have hone : Lines.starts true (first :: lines ++ [[]]) = [first] := by
      refine Lines.starts_block (hlines.unbroken first List.mem_cons_self).2 ?_ []
      exact fun line hline => (hlines.unbroken line (List.mem_cons_of_mem _ hline)).2
    rw [hone] at hstarts
    rw [List.mem_singleton.mp (hstarts.subset hmem)]
    exact hlines.origin_form
  · intro earlier request' later hsplit _
    obtain ⟨rfl, rfl⟩ : earlier = [] ∧ request' = request := by
      cases earlier with
      | nil => exact ⟨rfl, (List.cons.inj hsplit).1.symm⟩
      | cons x earlier => simp at hsplit
    obtain ⟨parts, user, uri, -, -, huri, hhost, hport, -⟩ := hrelay.routed
    obtain ⟨hnamed, port, hport', hvalue⟩ := target_of_inFull hfull huri
    rw [hport, Option.some.injEq] at hport'
    exact ⟨hhost.trans hnamed, hport' ▸ hvalue⟩

/-- A request alone that is not written in full goes to another target. -/
theorem not_keepsApart_single (hrelay : RelayOf setup request rest relay)
    (hfull : ¬ request.uri.InFull) (more : List WireRequest) :
    ¬ KeepsApart (request :: more) relay (relay.firstPayload ++ relay.rest) := by
  intro h
  obtain ⟨parts, user, uri, -, -, huri, hhost, -⟩ := hrelay.routed
  have hsent : sentBefore relay [] < (relay.firstPayload ++ relay.rest).length := by
    obtain ⟨first, lines, hlines⟩ := payloadLines_of_relayOf hrelay
    rw [hlines.payload_eq]
    simp [sentBefore]
  have hnamed := (h.own_target [] request more rfl hsent).1
  exact host_of_not_inFull hfull huri (hhost.symm.trans hnamed)

/-- **Behind the first request** the credentials of the next one are relayed. -/
theorem not_keepsApart_many (hrelay : RelayOf setup request (second.bytes ++ rest) relay)
    (more : List WireRequest) :
    ¬ KeepsApart (request :: second :: more) relay (relay.firstPayload ++ relay.rest) := by
  intro h
  obtain ⟨first, lines, hlines⟩ := payloadLines_of_relayOf hrelay
  obtain ⟨header, hmem, hname⟩ := second.authorized
  have hproxy : isProxyHeader header.name = true := by rw [isProxyHeader, hname, Bool.true_or]
  have hline : header.line ∈ second.proxyLines :=
    List.mem_map_of_mem (List.mem_filter.mpr ⟨hmem, hproxy⟩)
  apply h.no_credentials second (by simp) _ hline
  -- the first payload ends with a line, and so does the second request
  have hfirst := Lines.scan_join (show (0x0d : UInt8) ≠ 0x0a by decide)
    (Lines.unbroken_block fun line hline => (hlines.unbroken line hline).1) relay.rest
  have hsecond := Lines.scan_join (show (0x0d : UInt8) ≠ 0x0a by decide)
    (Lines.unbroken_block fun line hline => (lines_unbroken second line hline).1) rest
  rw [← hlines.payload_eq] at hfirst
  rw [← WireRequest.bytes] at hsecond
  rw [Lines.complete, hfirst, hrelay.rest_eq, hsecond]
  refine List.mem_append_right _ (List.mem_append_left _ (List.mem_append_left _ ?_))
  exact List.mem_cons_of_mem _ (List.mem_map_of_mem hmem)

end connection

/-- **Several requests on one connection, exactly**: credentials stay with the proxy
    and every request goes to its own target if and only if nothing is served,
    or there is one request and its URI is written in full. -/
theorem keeps_apart_exact (setup : Setup Backend) (first : WireRequest) (more : List WireRequest)
    (readError : Option String) (respond : Bytes → Except String Unit) :
    (∀ relay written,
      (handle setup (connection (first :: more) readError respond)).result = .ok relay →
      relay.Forwards written → KeepsApart (first :: more) relay written) ↔
    ¬ Served setup first ∨ (more = [] ∧ first.uri.InFull) := by
  have hbytes : (connection (first :: more) readError respond).bytes =
      first.bytes ++ more.flatMap WireRequest.bytes := rfl
  constructor
  · intro h
    by_contra hnot
    rw [not_or, not_not] at hnot
    obtain ⟨⟨relay, hrelay, hopens⟩, hmany⟩ := hnot
    have hrelay' := hrelay.with_rest (more.flatMap WireRequest.bytes)
    -- the relay may forward everything behind the first request
    have hforwards := Relay.forwards_all (hopens.with_rest (more.flatMap WireRequest.bytes))
    have hkeeps := h _ _ ((handle_iff hbytes).mpr hrelay') hforwards
    cases more with
    | nil => exact not_keepsApart_single hrelay' (fun hfull => hmany ⟨rfl, hfull⟩) [] hkeeps
    | cons second more => exact not_keepsApart_many hrelay' more hkeeps
  · intro h relay written hresult hforwards
    have hrelay := (handle_iff hbytes).mp hresult
    by_cases hnone : written = []
    · rw [hnone]
      exact keepsApart_nil _ _
    · have hserved : Served setup first := ⟨_, hrelay.with_rest [],
        Relay.Opens.with_rest (Relay.opens_of_forwards hforwards hnone) []⟩
      rcases h with hnot | ⟨rfl, hfull⟩
      · exact absurd hserved hnot
      · exact keepsApart_single hrelay hfull hforwards

/-! ## Two requests -/

/-- A proxy that routes 10.0.0.0/8 directly. -/
def exampleSetup : Setup Backend where
  auth := exampleAuth
  base64 := exampleBase64
  router := ⟨⟨true, .remoteForProxy⟩, Router.exampleRouter.chinaIp, []⟩
  network := {
    dns := fun _ => .error "no such host"
    connectDns := fun _ => .error "no such host"
    dial := fun _ => .ok ()
    opening := fun _ _ => ⟨.ok (), true, .ok (), none⟩ }

/-- Alice's credentials. -/
def exampleHeader : WireHeader where
  name := proxyAuthorization
  value := Text.asBytes " Basic YWxpY2U6c2VjcmV0".toList
  name_nonempty := by decide
  name_spelled := List.all_iff_forall_prop.mp rfl
  value_clean := by decide

/-- `GET http://host/` by Alice. -/
def exampleGet (host : Text) (nonempty : host ≠ []) (spelled : ∀ c ∈ host, isNameChar c = true) :
    WireRequest where
  method := "GET".toList
  uri := {
    scheme := "http".toList
    host := .name host nonempty spelled
    port := none
    path := ['/']
    query := none
    scheme_spelled := List.all_iff_forall_prop.mp rfl
    port_spelled := by simp
    path_spelled := List.all_iff_forall_prop.mp rfl
    path_absolute := .inr rfl
    query_spelled := by simp }
  headers := [exampleHeader]
  method_nonempty := by decide
  method_spelled := List.all_iff_forall_prop.mp rfl
  method_form := by decide
  bodyless := by
    intro header hmem
    rw [List.mem_singleton.mp hmem]
    exact ⟨by decide, fun hlength => absurd hlength (by decide)⟩
  authorized := ⟨exampleHeader, List.mem_cons_self, by decide⟩

/-- Alice's two requests, for two targets. -/
def exampleFirst : WireRequest :=
  exampleGet "10.0.0.1".toList (by decide) (List.all_iff_forall_prop.mp rfl)

def exampleSecond : WireRequest :=
  exampleGet "10.0.0.2".toList (by decide) (List.all_iff_forall_prop.mp rfl)

def exampleParts : RequestParts where
  method := "GET".toList
  target := "http://10.0.0.1/".toList
  version := "HTTP/1.1".toList
  headers := [exampleCredentials]

/-- The relay they get. -/
def exampleRelay (rest : Bytes) : Relay Backend where
  decision := .direct "10.0.0.1".toList
  host := "10.0.0.1".toList
  port := 80
  firstPayload := Text.asBytes "GET / HTTP/1.1\r\nHost: 10.0.0.1\r\n\r\n".toList
  rest := rest

theorem exampleParts_parsed : RequestParsed exampleParts where
  method := ⟨by decide, List.all_iff_forall_prop.mp rfl⟩
  target := ⟨by decide, List.all_iff_forall_prop.mp rfl⟩
  version := ⟨by decide, List.all_iff_forall_prop.mp rfl⟩
  http := by decide
  headers := by
    intro header hmem
    rw [List.mem_singleton.mp hmem]
    exact exampleCredentials_parsed

theorem exampleRelay_relayOf (rest : Bytes) :
    RelayOf exampleSetup exampleFirst rest (exampleRelay rest) where
  fits := by decide
  routed := by
    have hbytes : exampleFirst.bytes = Text.asBytes (render exampleParts) := by decide +kernel
    have hparse : parseRequest exampleFirst.bytes = .ok exampleParts := by
      rw [hbytes]
      exact parseRequest_render exampleParts_parsed
    have huri : parseAbsoluteUri exampleFirst.uri.text =
        .ok ⟨"http".toList, "10.0.0.1".toList, some 80, "/".toList⟩ := by decide
    exact ⟨_, _, _, hparse, authenticate_example rfl, huri, rfl, rfl, rfl, rfl⟩
  begins := ⟨_, rfl, rfl⟩
  rest_eq := rfl

/-- The target of the first request gets the credentials of the second. -/
theorem second_request_relayed :
    ¬ ∀ relay written,
      (handle exampleSetup (connection [exampleFirst, exampleSecond] none fun _ => .ok ())).result =
        .ok relay →
      relay.Forwards written → KeepsApart [exampleFirst, exampleSecond] relay written := by
  intro hclaim
  have hrelay := exampleRelay_relayOf (exampleSecond.bytes ++ [])
  have hopens : (exampleRelay (exampleSecond.bytes ++ [])).Opens :=
    fun _ hdecision => by cases hdecision
  have hbytes : (connection [exampleFirst, exampleSecond] none fun _ => .ok ()).bytes =
      exampleFirst.bytes ++ (exampleSecond.bytes ++ []) := rfl
  have hresult := (handle_iff hbytes).mpr hrelay
  exact not_keepsApart_many hrelay [] (hclaim _ _ hresult (Relay.forwards_all hopens))

end Http

end EchProxy
