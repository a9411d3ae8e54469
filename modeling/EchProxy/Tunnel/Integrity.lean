import EchProxy.Framework.Pipe
import EchProxy.Tunnel.System

/-! # Tunnel Integrity

    In both directions the bytes that come out of a tunnel are a prefix of
    the bytes that went in, whatever is reset, aborted or timed out on the
    way.  A half-close that is processed says that the prefix is everything.

    The argument follows the bytes through the parts: the reading task sends
    a prefix of what it read, the queue and the stream deliver a prefix of
    what was sent, and the main loop at the other end writes a prefix of what
    it received.
-/

namespace EchProxy

open Fifo

namespace TunnelState

variable {setup : TunnelSetup} {s s' : TunnelState}

/-! ## From the sockets into the frames -/

/-- The bytes the client sends are the first payload and what its task sent. -/
theorem Inv.client_bytes (h : Inv setup s) (hstart : s.client.main ≠ .start) :
    s.client.sent.flatMap ClientFrame.bytes
      = setup.target.firstPayload ++ ReadTask.bytesOf clientKit s.client.task.sent := by
  rw [h.client.sent_eq, if_neg hstart, List.flatMap_cons]
  rfl

/-- The bytes the client sends are a prefix of the first payload and what was
    read locally. -/
theorem Inv.client_bytes_prefix (h : Inv setup s) :
    s.client.sent.flatMap ClientFrame.bytes
      <+: setup.target.firstPayload ++ s.client.task.read := by
  by_cases hstart : s.client.main = .start
  · rw [h.client.sent_eq, if_pos hstart]
    exact List.nil_prefix
  · rw [h.client_bytes hstart]
    exact (List.prefix_append_right_inj _).mpr h.client.task.sent_prefix

/-- Frames outside the target's byte stream carry no bytes. -/
theorem bytes_filter_isStream (frames : List ServerFrame) :
    (frames.filter ServerFrame.isStream).flatMap ServerFrame.bytes
      = frames.flatMap ServerFrame.bytes := by
  induction frames with
  | nil => rfl
  | cons frame frames ih =>
    by_cases hstream : frame.isStream = true
    · rw [List.filter_cons_of_pos hstream, List.flatMap_cons, List.flatMap_cons, ih]
    · have hempty : frame.bytes = [] := by
        obtain ⟨payload⟩ := frame
        rcases payload with _ | (result | bytes | _ | reason | millis)
        · rfl
        · rfl
        · exact absurd rfl hstream
        · rfl
        · rfl
        · rfl
      rw [List.filter_cons_of_neg hstream, List.flatMap_cons, hempty, ih]
      rfl

/-- The bytes the server sends are those its task sent. -/
theorem Inv.server_bytes (h : Inv setup s) :
    s.server.sent.flatMap ServerFrame.bytes
      = ReadTask.bytesOf serverKit s.server.task.sent := by
  rw [← bytes_filter_isStream, h.server.stream, bytes_filter_isStream]
  rfl

/-! ## Prefixes, end to end -/

/-- What is written to the target is a prefix of what the client has to say. -/
theorem Inv.upload_in_order (h : Inv setup s) :
    s.server.targetWritten <+: setup.target.firstPayload ++ s.client.task.read := by
  have hreceived : s.server.receivedBytes <+: s.client.sent.flatMap ClientFrame.bytes :=
    h.received_in_order.flatMap ClientFrame.bytes
  exact h.server.written_prefix.trans (hreceived.trans h.client_bytes_prefix)

/-- What is written to the local socket is a prefix of what the target
    delivered. -/
theorem Inv.download_in_order (h : Inv setup s) :
    s.client.localWritten <+: s.server.task.read := by
  have hreceived : s.client.receivedBytes <+: s.server.sent.flatMap ServerFrame.bytes :=
    h.replied_in_order.flatMap ServerFrame.bytes
  rw [h.server_bytes] at hreceived
  exact h.client.written_prefix.trans (hreceived.trans h.server.task.sent_prefix)

/-! ## The half-close -/

/-- A frame that a step takes next to those received is one that was sent. -/
theorem Inv.received_next (h : Inv setup s) {frame : ClientFrame}
    (hs : s.step setup (.server (.recv (some (.ok frame)))) = some s') :
    s.server.received ++ [frame] <+: s.client.sent := by
  obtain ⟨-, hserver, -, -, heq⟩ := server_step hs
  have hpre := (h.step hs).received_in_order
  rw [(ServerState.step_effect hserver).received, heq] at hpre
  exact hpre

/-- The same on the way back. -/
theorem Inv.replied_next (h : Inv setup s) {frame : ServerFrame}
    (hs : s.step setup (.client (.recv (some (.ok frame)))) = some s') :
    s.client.received ++ [frame] <+: s.server.sent := by
  obtain ⟨-, hclient, -, -, heq⟩ := client_step hs
  have hpre := (h.step hs).replied_in_order
  rw [(ClientState.step_effect hclient).received, heq] at hpre
  exact hpre

/-- When the server gets to the half-close, everything that was read locally,
    up to the end of file, is written. -/
theorem Inv.upload_complete (h : Inv setup s) (hmain : s.server.main = .relaying)
    (hs : s.step setup (.server (.recv (some (.ok halfCloseFrame)))) = some s') :
    s.client.task.eof = true ∧
      s.server.targetWritten = setup.target.firstPayload ++ s.client.task.read := by
  have htask := h.client.task
  obtain ⟨rest, hrest⟩ := h.received_next hs
  have hstart : s.client.main ≠ .start := by
    intro hstart
    rw [h.client.sent_eq, if_pos hstart] at hrest
    simp at hrest
  have hsent := h.client.sent_eq
  rw [if_neg hstart, ← hrest, List.append_assoc] at hsent
  -- the loop has taken `Open` and all frames of the task but the last
  have hnonempty : s.server.received ≠ [] := by
    intro hnil
    rw [hnil] at hsent
    cases (List.cons.inj hsent).1
  obtain ⟨first, more, hcons⟩ := List.exists_cons_of_ne_nil hnonempty
  rw [hcons, List.cons_append] at hsent
  obtain ⟨rfl, htail⟩ := List.cons.inj hsent
  have hlast : rest = [] := htask.half_close_last htail.symm
  have hmem : halfCloseFrame ∈ s.client.task.sent := by
    rw [← htail]
    simp
  obtain ⟨heof, hall⟩ := htask.half_close hmem
  refine ⟨heof, ?_⟩
  have hwritten := h.server.written_eq (by simp [hmain, ServerPc.phase])
  rw [hmain] at hwritten
  have hpending : s.server.targetWritten = s.server.receivedBytes := by
    simpa [ServerPc.pending] using hwritten
  rw [hpending, ← hall, ← htail, hlast, ServerState.receivedBytes, hcons]
  simp [ReadTask.bytesOf, openFrame, ClientFrame.bytes, clientKit, halfCloseFrame]

/-- When the client gets to the half-close, everything the target delivered,
    up to the end of file, is written. -/
theorem Inv.download_complete (h : Inv setup s) (hmain : s.client.main = .relaying)
    (hs : s.step setup (.client (.recv (some (.ok serverHalfClose)))) = some s') :
    s.server.task.eof = true ∧ s.client.localWritten = s.server.task.read := by
  have htask := h.server.task
  obtain ⟨rest, hrest⟩ := h.replied_next hs
  -- the half-close is in the task's part of the stream, as its last frame
  have hfilter := h.server.stream
  rw [← hrest, List.append_assoc, List.filter_append, List.singleton_append,
    List.filter_cons_of_pos (show serverHalfClose.isStream = true from rfl)] at hfilter
  have hmem : serverHalfClose ∈ s.server.task.sent := by
    have hin : serverHalfClose ∈ s.server.task.sent.filter ServerFrame.isStream := by
      rw [← hfilter]
      simp
    exact (List.mem_filter.mp hin).1
  obtain ⟨heof, hall⟩ := htask.half_close hmem
  refine ⟨heof, ?_⟩
  have hnone : rest.filter ServerFrame.isStream = [] := htask.half_close_last_filter hfilter.symm
  have hwritten := h.client.written_eq (by simp [hmain])
  rw [hmain] at hwritten
  have hpending : s.client.localWritten = s.client.receivedBytes := by
    simpa [ClientPc.pending] using hwritten
  have hrestbytes : rest.flatMap ServerFrame.bytes = [] := by
    rw [← bytes_filter_isStream, hnone]
    rfl
  have hbytes := h.server_bytes
  rw [hall, ← hrest, List.flatMap_append, List.flatMap_append, hrestbytes] at hbytes
  rw [hpending, ← hbytes]
  simp [ClientState.receivedBytes, serverHalfClose, ServerFrame.bytes]

/-! ## Each direction is a reliable pipe -/

/-- What was read and written at the four sockets' ends stays so. -/
theorem Inv.step_grows (h : Inv setup s) {l : TunnelLabel} (hs : s.step setup l = some s') :
    (s.client.task.read <+: s'.client.task.read ∧
      s.client.localWritten <+: s'.client.localWritten) ∧
    s.server.task.read <+: s'.server.task.read ∧
      s.server.targetWritten <+: s'.server.targetWritten := by
  constructor
  · rcases step_client hs with ⟨cl, -, hclient⟩ | heq
    · exact ClientState.step_grows hclient
    · rw [heq]
      exact ⟨List.prefix_rfl, List.prefix_rfl⟩
  · rcases step_server hs with ⟨sl, -, hserver⟩ | heq
    · exact h.server.step_grows hserver
    · rw [heq]
      exact ⟨List.prefix_rfl, List.prefix_rfl⟩

/-- The way up is a reliable pipe that holds the first payload from the
    start. -/
def uploadPipe (setup : TunnelSetup) :
    Lts.System.Simulation (system setup) (Pipe.system setup.target.firstPayload) where
  abs := fun s => ⟨setup.target.firstPayload ++ s.client.task.read, s.server.targetWritten⟩
  init := by
    rintro s rfl
    show Pipe.mk (setup.target.firstPayload ++ []) [] = _
    rw [List.append_nil]
  step := fun s l s' hr hs => by
    have h := inv_of_reachable hr
    obtain ⟨⟨hread, -⟩, -, hwritten⟩ := h.step_grows hs
    exact .inl (Pipe.step_of_prefix ((List.prefix_append_right_inj _).mpr hread) hwritten
      (h.step hs).upload_in_order)

/-- So is the way down. -/
def downloadPipe (setup : TunnelSetup) :
    Lts.System.Simulation (system setup) (Pipe.system ([] : Bytes)) where
  abs := fun s => ⟨s.server.task.read, s.client.localWritten⟩
  init := by
    rintro s rfl
    rfl
  step := fun s l s' hr hs => by
    have h := inv_of_reachable hr
    obtain ⟨⟨-, hwritten⟩, hread, -⟩ := h.step_grows hs
    exact .inl (Pipe.step_of_prefix hread hwritten (h.step hs).download_in_order)

/-! ## The main result -/

/-- The target gets what the local side said, in order. -/
theorem targetWritten_in_order (hr : (system setup).Reachable s) :
    s.server.targetWritten <+: setup.target.firstPayload ++ s.client.task.read :=
  (uploadPipe setup).reachable hr |> Pipe.delivered_prefix

/-- The local side gets what the target said, in order. -/
theorem localWritten_in_order (hr : (system setup).Reachable s) :
    s.client.localWritten <+: s.server.task.read :=
  (downloadPipe setup).reachable hr |> Pipe.delivered_prefix

/-- **Tunnel integrity**, over every run of every tunnel: (a) both sides only
    ever write a prefix of what the other side read, and (b) a half-close that
    is processed finds the whole stream, up to its end of file, written. -/
theorem tunnel_integrity (hr : (system setup).Reachable s) :
    (s.server.targetWritten <+: setup.target.firstPayload ++ s.client.task.read ∧
      s.client.localWritten <+: s.server.task.read) ∧
    (∀ s', s.server.main = .relaying →
      (system setup).step s (.server (.recv (some (.ok halfCloseFrame)))) = some s' →
        s.client.task.eof = true ∧ s.client.task.read = setup.localInput ∧
          s.server.targetWritten = setup.target.firstPayload ++ setup.localInput) ∧
    (∀ s', s.client.main = .relaying →
      (system setup).step s (.client (.recv (some (.ok serverHalfClose)))) = some s' →
        s.server.task.eof = true ∧ s.server.task.read = setup.targetInput ∧
          s.client.localWritten = setup.targetInput) := by
  have h := inv_of_reachable hr
  refine ⟨⟨targetWritten_in_order hr, localWritten_in_order hr⟩, ?_, ?_⟩
  · intro s' hmain hs
    obtain ⟨heof, hwritten⟩ := h.upload_complete hmain hs
    have hread := h.client.task.read_all heof
    exact ⟨heof, hread, hread ▸ hwritten⟩
  · intro s' hmain hs
    obtain ⟨heof, hwritten⟩ := h.download_complete hmain hs
    have hread := h.server.task.read_all heof
    exact ⟨heof, hread, hread ▸ hwritten⟩

end TunnelState

/-! ## A run -/

/-- A tunnel to `a.example:443`: the local side says 1, 2, 3 (1 with the
    first payload), the target answers 9. -/
def exampleSetup : TunnelSetup where
  server := exampleServer
  metadata := exampleRequest
  target := ⟨"a.example".toList, 443, [1]⟩
  localInput := [2, 3]
  targetInput := [9]

/-- The open phase of a run. -/
def exampleOpen : List TunnelLabel :=
  [.client .sendOpen, .client .tokenOk, .pumpUp, .server .authenticate, .client .callOk,
    .server (.recv (some (.ok (openFrame exampleSetup.target)))),
    .server (.resolve (.ok [⟨.v4 (.new 8 8 8 8), 443⟩])), .server (.dial (.connected none)),
    .server (.targetWrite 1), .server .targetWriteDone,
    .server (.send (openResultFrame true "")), .pumpDown,
    .client (.recv (some (.ok (openResultFrame true ""))))]

/-- The local side speaks and closes, up to where the server is about to take
    the half-close. -/
def exampleUpload : List TunnelLabel :=
  [.client (.task (.read [2, 3])), .client (.task (.send (dataFrame [2, 3]) false)), .pumpUp,
    .server (.recv (some (.ok (dataFrame [2, 3])))), .server (.targetWrite 2),
    .server .targetWriteDone, .client (.task .eof),
    .client (.task (.send halfCloseFrame true)), .pumpUp]

/-- At the server's half-close the target has 1, 2, 3. -/
theorem tunnel_integrity_example :
    ∃ s s', (TunnelState.system exampleSetup).Reachable s ∧
      (TunnelState.system exampleSetup).step s
        (.server (.recv (some (.ok halfCloseFrame)))) = some s' ∧
      s.server.targetWritten = [1, 2, 3] := by
  obtain ⟨s, hrun⟩ : ∃ s, (TunnelState.system exampleSetup).run (.fresh exampleSetup)
      (exampleOpen ++ exampleUpload) = some s := ⟨_, rfl⟩
  have hr := Lts.System.reachable_of_run (.init rfl) hrun
  have hseen : ((TunnelState.system exampleSetup).run (.fresh exampleSetup)
      (exampleOpen ++ exampleUpload)).bind (fun s =>
        ((TunnelState.system exampleSetup).step s
          (.server (.recv (some (.ok halfCloseFrame))))).map fun _ => s.server.main)
      = some .relaying := rfl
  rw [hrun, Option.bind_some, Option.map_eq_some_iff] at hseen
  obtain ⟨s', hs, hmain⟩ := hseen
  exact ⟨s, s', hr, hs, ((TunnelState.tunnel_integrity hr).2.1 s' hmain hs).2.2⟩

end EchProxy
