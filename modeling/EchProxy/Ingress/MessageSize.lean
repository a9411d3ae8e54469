import EchProxy.Http.Cut
import EchProxy.Http.Size
import EchProxy.Socks.Handle
import EchProxy.Tunnel.System

/-! # Messages Fit

    Whatever a client asks for and however the sockets cut their data, no frame
    is larger than the limit the client sets.  An `Open` is bounded by what an
    ingress reads before it opens the tunnel, a `Data` by what is read at once.
-/

namespace EchProxy

open Checked Traced

/-! ## The target of a tunnel -/

/-- A host without a payload fits where an ingress reads it. -/
theorem bareOpen_fits {host : Text} (h : Text.len host ≤ Http.maxHeaderSize) (port : UInt16) :
    (openFrame ⟨host, port.toUInt32, []⟩).Fits := by
  have hmax : maxMessageSize = 131072 := rfl
  have hhead : Http.maxHeaderSize = 65536 := rfl
  have hport := Http.length_varint_port port
  apply openFrame_fits
  dsimp only
  rw [UInt16.toNat_toUInt32, List.length_nil]
  omega

namespace IpText

theorem len_le_of_length {t : Text} {n : Nat} (h : t.length ≤ n) : Text.len t ≤ 4 * n := by
  induction t generalizing n with
  | nil => exact Nat.zero_le _
  | cons c t ih =>
    rw [List.length_cons] at h
    have hrest := ih (show t.length ≤ n - 1 by omega)
    have hsize := c.utf8Size_le_four
    rw [Text.len_cons]
    omega

theorem length_displayIpv4_le (ip : Ipv4Addr) : (displayIpv4 ip).length ≤ 15 := by
  have hoctet : ∀ octet : BitVec 8, (displayOctet octet).length ≤ 3 := by
    intro octet
    have hlt := octet.isLt
    exact (Nat.length_toDigits_le_iff (by omega) (by omega)).mpr (by omega)
  have h0 := hoctet (ip.octet 0)
  have h1 := hoctet (ip.octet 1)
  have h2 := hoctet (ip.octet 2)
  have h3 := hoctet (ip.octet 3)
  simp only [displayIpv4, List.length_append, List.length_cons]
  omega

theorem length_displaySegments_le (segments : List (BitVec 16)) :
    (displaySegments segments).length ≤ 5 * segments.length := by
  have hsegment : ∀ segment : BitVec 16, (displaySegment segment).length ≤ 4 := by
    intro segment
    have hlt := segment.isLt
    exact (Nat.length_toDigits_le_iff (by omega) (by omega)).mpr (by omega)
  have htail : ∀ segments, (displayTail segments).length ≤ 5 * segments.length := by
    intro segments
    induction segments with
    | nil => exact Nat.zero_le _
    | cons segment segments ih =>
      have hfirst := hsegment segment
      rw [displayTail, List.flatMap_cons, ← displayTail, List.length_append, List.length_cons,
        List.length_cons]
      omega
  cases segments with
  | nil => exact Nat.zero_le _
  | cons segment segments =>
    have hfirst := hsegment segment
    have hrest := htail segments
    rw [displaySegments, List.length_append, List.length_cons]
    omega

/-- An address is short. -/
theorem length_display_le (ip : IpAddr) : (std.display ip).length ≤ 82 := by
  cases ip with
  | v4 ip =>
    have h := length_displayIpv4_le ip
    show (displayIpv4 ip).length ≤ 82
    omega
  | v6 ip =>
    have height : ip.segments.length = 8 := rfl
    show (displayIpv6 ip).length ≤ 82
    rw [displayIpv6]
    split
    · next ipv4 _ =>
      have h := length_displayIpv4_le ipv4
      have hprefix : "::ffff:".toList.length = 7 := rfl
      rw [List.length_append]
      omega
    · dsimp only
      split
      -- the zeros in the middle are left out, so less is written on both sides
      · have hbefore := length_displaySegments_le
          (ip.segments.take (zeroLoop 0 ⟨0, 0⟩ ⟨0, 0⟩ ip.segments).start)
        have hbehind := length_displaySegments_le (ip.segments.drop
          ((zeroLoop 0 ⟨0, 0⟩ ⟨0, 0⟩ ip.segments).start +
            (zeroLoop 0 ⟨0, 0⟩ ⟨0, 0⟩ ip.segments).len))
        have hmark : "::".toList.length = 2 := rfl
        rw [List.length_take] at hbefore
        rw [List.length_drop] at hbehind
        rw [List.length_append, List.length_append]
        omega
      · have hall := length_displaySegments_le ip.segments
        omega

end IpText

/-- The host of a SOCKS5 request is an address or at most 255 bytes. -/
theorem Socks.Destination.len_host_le (destination : Socks.Destination) :
    Text.len destination.host ≤ 328 := by
  cases destination with
  | ipv4 ip => exact IpText.len_le_of_length (IpText.length_display_le (.v4 ip))
  | domain name fits =>
    show Text.len name ≤ 328
    omega
  | ipv6 ip => exact IpText.len_le_of_length (IpText.length_display_le (.v6 ip))

/-! ## What the ingresses ask for -/

variable {Pool : Type}

/-- If the event is a request for a tunnel, its `Open` fits. -/
def IngressEvent.Fits (e : IngressEvent Pool) : Prop :=
  ∀ pool target, e = .request pool target → (openFrame target).Fits

theorem IngressEvent.fits_of_write {e : IngressEvent Pool} (h : e.isWrite = true) : e.Fits := by
  intro pool target heq
  rw [heq] at h
  cases h

theorem establish_fits (network : Network Pool) (relay : Relay Pool)
    (h : (openFrame ⟨relay.host, relay.port.toUInt32, relay.firstPayload⟩).Fits) :
    Only (establish network relay) IngressEvent.Fits := by
  rw [establish]
  split
  · refine (connectDirect_only _ _ _).mono fun e he pool target heq => ?_
    rw [heq] at he
    cases he
  · refine (openTunnel_only _ _ _).mono fun e he pool target heq => ?_
    rcases he with rfl | rfl
    · obtain ⟨-, rfl⟩ := IngressEvent.request.inj heq
      exact h
    · cases heq

theorem decideRoute_fits (router : Router Pool) (network : Network Pool) (user : UserProfile)
    (host : Text) (port : UInt16) :
    Only (decideRoute router network user host port) IngressEvent.Fits := by
  refine (decideRoute_only _ _ _ _ _).mono fun e he pool target heq => ?_
  rcases he with rfl | ⟨l, rfl⟩
  · cases heq
  · cases heq

namespace Http

/-- A head that was read is not too long. -/
theorem length_of_readHeader {client : ClientStream} {head rest : Bytes}
    (h : readHeader client = .ok (head, rest)) : head.length ≤ maxHeaderSize :=
  (readHeader_iff.mp h).2

/-- **The target that is read off a request** fits. -/
theorem readTarget_fits {client : ClientStream} {head rest : Bytes} {request : RequestParts}
    {host : Text} {port : UInt16} {firstPayload : Bytes}
    (hhead : readHeader client = .ok (head, rest)) (hrequest : parseRequest head = .ok request)
    (htarget : readTarget request = .ok (host, port, firstPayload)) :
    (openFrame ⟨host, port.toUInt32, firstPayload⟩).Fits := by
  have hsize := length_of_readHeader hhead
  have hpayload := readTarget_payload htarget
  split at hpayload
  · obtain ⟨hauthority, rfl⟩ := hpayload
    obtain ⟨headers, -, hparts⟩ := len_of_parseRequest hrequest
    have hhost := len_host_le hauthority
    exact bareOpen_fits (by omega) port
  · obtain ⟨uri, huri, rfl, hport, rfl⟩ := hpayload
    exact rewritten_fits hsize hrequest huri hport

/-- So does everything a connection asks for. -/
theorem handle_fits (setup : Setup Pool) (client : ClientStream) :
    Only (handle setup client) IngressEvent.Fits := by
  rw [handle_eq]
  refine Only.bind ((accept_only _ _).mono fun _ => IngressEvent.fits_of_write) ?_
  intro ⟨user, request, rest⟩ haccept
  obtain ⟨head, hhead, hrequest, -⟩ := accept_eq_ok.mp haccept
  refine Only.bind (Only.lift _) ?_
  intro ⟨host, port, firstPayload⟩ htarget
  refine Only.bind (decideRoute_fits _ _ _ _ _) fun decision _ => ?_
  have hanswer : Only (answerConnect client request : Ingress Pool Unit) IngressEvent.Fits := by
    refine Only.ite (fun _ => ?_) fun _ => Only.pure _
    exact (writeAll_only _ _).mono fun _ he => IngressEvent.fits_of_write (he ▸ rfl)
  refine Only.bind hanswer fun _ _ => ?_
  have hfits := readTarget_fits hhead hrequest htarget
  refine Only.bind (establish_fits _ _ hfits) fun _ _ => ?_
  exact Only.bind (Only.emit fun pool target heq => by cases heq) fun _ _ => Only.pure _

end Http

namespace Socks

theorem handle_fits (setup : Setup Pool) (client : ClientStream) :
    Only (handle setup client) IngressEvent.Fits := by
  refine Only.bind ((accept_records client.bytes).mono fun _ => IngressEvent.fits_of_write) ?_
  intro ⟨⟨user, host, port⟩, rest⟩ haccept
  obtain ⟨handshake, -, houtcome⟩ := handshake_of_accept haccept
  obtain ⟨-, htarget⟩ := Prod.mk.inj houtcome
  obtain ⟨rfl, -⟩ := Prod.mk.inj htarget
  have hhost := handshake.request.destination.len_host_le
  have hhead : Http.maxHeaderSize = 65536 := rfl
  have hfits := bareOpen_fits (show Text.len handshake.request.destination.host ≤ _ by omega) port
  refine connect_rule setup client user _ port rest ?_ ?_ ?_ ?_ ?_
  · exact fun pool target heq => by cases heq
  · exact fun l pool target heq => by cases heq
  · exact fun reply pool target heq => by cases heq
  · exact fun pool target heq => by cases heq
  · exact fun decision _ => establish_fits _ _ hfits

end Socks

/-! ## What the relays read -/

namespace ReadTask

variable {F : Type} {kit : FrameKit F} {t t' : ReadTask F}

/-- Each frame of the task carries what one read returned at most. -/
def Chunked (kit : FrameKit F) (t : ReadTask F) : Prop :=
  ∀ frame ∈ t.sent ++ t.hand, (kit.bytes frame).length ≤ dataChunkSize

theorem chunked_fresh (kit : FrameKit F) (input : Bytes) : Chunked kit (fresh input) :=
  fun _ hframe => absurd hframe List.not_mem_nil

/-- A task that holds another frame, or none. -/
theorem Chunked.hold (h : Chunked kit t) (hsent : t'.sent = t.sent)
    (hhand : ∀ frame ∈ t'.hand, (kit.bytes frame).length ≤ dataChunkSize) : Chunked kit t' := by
  intro frame hframe
  rcases List.mem_append.mp hframe with hmem | hmem
  · exact h frame (List.mem_append_left _ (hsent ▸ hmem))
  · exact hhand frame hmem

theorem Chunked.step [DecidableEq F] {l : TaskLabel F} (h : Chunked kit t)
    (hs : t.step kit l = some t') : Chunked kit t' := by
  cases step_iff.mp hs with
  | @read bytes _ _ hsize _ =>
    -- the buffer bounds what a read returns
    refine h.hold rfl fun frame hframe => ?_
    rw [List.mem_singleton.mp hframe, kit.bytes_data]
    exact hsize
  | eof _ _ =>
    refine h.hold rfl fun frame hframe => ?_
    rw [List.mem_singleton.mp hframe, kit.bytes_halfClose]
    exact Nat.zero_le _
  | @readErr err _ =>
    refine h.hold rfl fun frame hframe => ?_
    rw [List.mem_singleton.mp hframe, kit.bytes_reset]
    exact Nat.zero_le _
  | @send frame last hpc =>
    have hhand : t.hand = [frame] := by rw [hand, hpc]
    intro sent hmem
    apply h
    rw [hhand]
    cases last with
    | true => simpa [hand] using hmem
    | false => simpa [hand] using hmem
  | sendFail _ | cancel _ _ _ =>
    exact h.hold rfl fun frame hframe => absurd hframe List.not_mem_nil

theorem Chunked.spawn (h : Chunked kit t) : Chunked kit t.spawn :=
  h.hold rfl fun _ hframe => absurd hframe List.not_mem_nil

theorem Chunked.abort (h : Chunked kit t) : Chunked kit t.abort := by
  refine h.hold t.abort_sent fun frame hframe => h frame (List.mem_append_right _ ?_)
  rw [hand, abort_pc] at hframe
  exact hframe

end ReadTask

namespace TunnelState

variable {setup : TunnelSetup} {s s' : TunnelState}

/-- What both reading tasks send is cut into chunks. -/
theorem chunked_of_reachable (hr : (system setup).Reachable s) :
    s.client.task.Chunked clientKit ∧ s.server.task.Chunked serverKit := by
  induction hr with
  | init h =>
    rw [show _ = fresh setup from h]
    exact ⟨ReadTask.chunked_fresh _ _, ReadTask.chunked_fresh _ _⟩
  | step _ hs ih =>
    obtain ⟨hclient, hserver⟩ := ih
    constructor
    · rcases step_client hs with ⟨cl, -, hstep⟩ | hsame
      · rcases (ClientState.step_effect hstep).task with ⟨tl, -, ht⟩ | heq | heq | ⟨-, heq⟩
        · exact hclient.step ht
        · exact heq ▸ hclient
        · exact heq ▸ hclient.abort
        · exact heq ▸ hclient.spawn
      · exact hsame ▸ hclient
    · rcases step_server hs with ⟨sl, -, hstep⟩ | hsame
      · rcases (ServerState.step_effect hstep).task with ⟨tl, -, ht⟩ | heq | heq | ⟨-, heq⟩
        · exact hserver.step ht
        · exact heq ▸ hserver
        · exact heq ▸ hserver.abort
        · exact heq ▸ hserver.spawn
      · exact hsame ▸ hserver

/-- The data that either side of a tunnel sends fits. -/
theorem data_fits (hr : (system setup).Reachable s) :
    (∀ bytes, dataFrame bytes ∈ s.client.sent → (dataFrame bytes).Fits) ∧
      ∀ bytes, serverData bytes ∈ s.server.sent → (serverData bytes).Fits := by
  have hinv := inv_of_reachable hr
  obtain ⟨hclient, hserver⟩ := chunked_of_reachable hr
  constructor
  · intro bytes hmem
    rw [hinv.client.sent_eq] at hmem
    split at hmem
    · cases hmem
    · -- `Open` is no data, and the rest is the task's
      rcases List.mem_cons.mp hmem with hopen | htask
      · cases hopen
      · exact (dataFrame_fits (hclient _ (List.mem_append_left _ htask))).1
  · intro bytes hmem
    have hstream : serverData bytes ∈ s.server.sent.filter ServerFrame.isStream :=
      List.mem_filter.mpr ⟨hmem, rfl⟩
    rw [hinv.server.stream] at hstream
    have htask := (List.mem_filter.mp hstream).1
    exact (dataFrame_fits (hserver _ (List.mem_append_left _ htask))).2

end TunnelState

/-! ## All messages -/

/-- **Every message fits**: the `Open` of a request in absolute form that is read and
    parsed, every `Open` that an ingress sends, and all data in every state of
    every tunnel. -/
theorem messages_fit (Pool : Type) :
    (∀ (client : ClientStream) (head rest : Bytes) (request : Http.RequestParts)
      (uri : Http.AbsoluteUri), Http.readHeader client = .ok (head, rest) →
      Http.parseRequest head = .ok request → Http.parseAbsoluteUri request.target = .ok uri →
      (openFrame ⟨uri.host,
        (uri.port.getD (if uri.scheme = "https".toList then 443 else 80)).toUInt32,
        Text.asBytes (Http.rewriteAbsoluteRequest request uri)⟩).Fits) ∧
    (∀ (setup : Http.Setup Pool) (client : ClientStream) (pool : Pool) (target : Open),
      .request pool target ∈ (Http.handle setup client).events → (openFrame target).Fits) ∧
    (∀ (setup : Socks.Setup Pool) (client : ClientStream) (pool : Pool) (target : Open),
      .request pool target ∈ (Socks.handle setup client).events → (openFrame target).Fits) ∧
    ∀ (setup : TunnelSetup) (s : TunnelState), (TunnelState.system setup).Reachable s →
      (∀ bytes, dataFrame bytes ∈ s.client.sent → (dataFrame bytes).Fits) ∧
      ∀ bytes, serverData bytes ∈ s.server.sent → (serverData bytes).Fits := by
  refine ⟨?_, ?_, ?_, fun setup s hr => TunnelState.data_fits hr⟩
  · intro client head rest request uri hhead hrequest huri
    obtain ⟨_, _, _, port, -, -, -, hread⟩ := Http.parseAbsoluteUri_eq_ok.mp huri
    have hport : uri.port = some port := by rw [hread]
    rw [hport, Option.getD_some]
    exact Http.rewritten_fits (Http.length_of_readHeader hhead) hrequest huri hport
  · intro setup client pool target hmem
    exact Http.handle_fits setup client _ hmem pool target rfl
  · intro setup client pool target hmem
    exact Socks.handle_fits setup client _ hmem pool target rfl

/-- Alice's request for `10.0.0.1` fits. -/
theorem messages_fit_example :
    (openFrame ⟨"10.0.0.1".toList, 80,
      Text.asBytes "GET / HTTP/1.1\r\nHost: 10.0.0.1\r\n\r\n".toList⟩).Fits := by
  let client : ClientStream :=
    ⟨Text.asBytes (Http.render Http.exampleParts), none, fun _ => .ok ()⟩
  have hhead : Http.readHeader client = .ok (Text.asBytes (Http.render Http.exampleParts), []) := by
    decide +kernel
  have huri : Http.parseAbsoluteUri Http.exampleParts.target =
      .ok ⟨"http".toList, "10.0.0.1".toList, some 80, "/".toList⟩ := by decide
  have hrewritten : Http.rewriteAbsoluteRequest Http.exampleParts
      ⟨"http".toList, "10.0.0.1".toList, some 80, "/".toList⟩ =
        "GET / HTTP/1.1\r\nHost: 10.0.0.1\r\n\r\n".toList := by decide
  have hport : (80 : UInt16).toUInt32 = 80 := rfl
  have hfits := (messages_fit Nat).1 client _ [] _ _ hhead
    (Http.parseRequest_render Http.exampleParts_parsed) huri
  rwa [hrewritten, Option.getD_some, hport] at hfits

end EchProxy
