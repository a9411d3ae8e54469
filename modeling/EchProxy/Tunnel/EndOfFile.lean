import EchProxy.Tunnel.Integrity

/-! # The End of File of a Tunnel

    A side that is told by a `HalfClose` that the other one is through has
    everything the other one said.  The local socket is shut down for no other
    reason.  The target is also shut down on the way out, where the stream of the
    client ends, fails or is reset, and then it may have less.
-/

namespace EchProxy

open Server Fifo

/-! ## The local socket -/

namespace ClientState

/-- The local side is told that the target is through, or is about to be. -/
def Ending (s : ClientState) : Prop := s.main = .shutting ∨ s.localShut = true

variable {target : Open} {s s' : ClientState} {l : ClientLabel}

theorem onFirst_localShut (s : ClientState) (item : StreamItem ServerFrame) :
    (s.onFirst item).main ≠ .shutting ∧ (s.onFirst item).localShut = s.localShut := by
  unfold onFirst
  split
  · exact ⟨fun h => (by cases h), rfl⟩
  · exact ⟨fun h => (by cases h), rfl⟩
  · split
    · split
      · exact ⟨fun h => (by cases h), rfl⟩
      · exact ⟨fun h => (by cases h), rfl⟩
    · exact ⟨fun h => (by cases h), rfl⟩
    · exact ⟨fun h => (by cases h), rfl⟩

theorem onNext_localShut (s : ClientState) (item : StreamItem ServerFrame)
    (hmain : s.main = .relaying) :
    ((s.onNext item).main = .shutting → item = some (.ok serverHalfClose)) ∧
      (s.onNext item).localShut = s.localShut := by
  rcases item with _ | (status | ⟨payload⟩)
  · exact ⟨fun h => (by cases h), rfl⟩
  · exact ⟨fun h => (by cases h), rfl⟩
  · rcases payload with _ | result | bytes | _ | reason | millis
    · exact ⟨fun h => (by cases h), rfl⟩
    · exact ⟨fun h => (by cases h), rfl⟩
    · exact ⟨fun h => (by cases h), rfl⟩
    · exact ⟨fun _ => rfl, rfl⟩
    · exact ⟨fun h => (by cases h), rfl⟩
    · refine ⟨fun h => ?_, rfl⟩
      rw [show (s.onNext (some (.ok ⟨some (.pong millis)⟩))).main = s.main from rfl, hmain] at h
      cases h

/-- Only a half-close begins the end. -/
theorem step_ending (hs : s.step target l = some s') (hend : s'.Ending) :
    s.Ending ∨ s.main = .relaying ∧ l = .recv (some (.ok serverHalfClose)) := by
  cases step_iff.mp hs with
  | @recvFirst item _ =>
    obtain ⟨hmain, hshut⟩ := onFirst_localShut (s.note item) item
    rcases hend with hend | hend
    · exact absurd hend hmain
    · exact .inl (.inr (hshut.symm.trans hend))
  | @recvNext item hmain =>
    obtain ⟨hitem, hshut⟩ := onNext_localShut (s.note item) item hmain
    rcases hend with hend | hend
    · exact .inr ⟨hmain, congrArg ClientLabel.recv (hitem hend)⟩
    · exact .inl (.inr (hshut.symm.trans hend))
  | localShutdownOk hmain => exact .inl (.inl hmain)
  | task _ => exact .inl hend
  | sendOpen _ | tokenOk _ | badToken _ | callOk _ | callErr _ | localWrite _ _ _
  | localWriteDone _ | localWriteErr _ | localShutdownErr _ =>
    rcases hend with hend | hend
    · cases hend
    · exact .inl (.inr hend)

end ClientState

/-! ## The target -/

namespace ServerState

/-- The server has the client's `HalfClose`, and shuts the target down for it. -/
def HalfClosed (s : ServerState) : Prop := halfCloseFrame ∈ s.received

variable {config : ServerConfig} {metadata : MetadataMap} {s s' : ServerState} {l : ServerLabel}

theorem step_halfClosed (hs : s.step config metadata l = some s') (h : s'.HalfClosed) :
    s.HalfClosed ∨ l = .recv (some (.ok halfCloseFrame)) := by
  rw [HalfClosed, (step_effect hs).received] at h
  rcases List.mem_append.mp h with hbefore | hnew
  · exact .inl hbefore
  · refine .inr ?_
    cases l with
    | recv item =>
      rcases item with _ | (status | frame)
      · cases hnew
      · cases hnew
      · rw [List.mem_singleton.mp hnew]
    | _ => cases hnew

/-- An item is taken at one of two places. -/
theorem waits_of_recv {item : StreamItem ClientFrame}
    (hs : s.step config metadata (.recv item) = some s') :
    s.main = .waitOpen ∨ s.main = .relaying := by
  cases step_iff.mp hs with
  | recvFirst hmain => exact .inl hmain
  | recvNext hmain => exact .inr hmain

end ServerState

/-! ## Both, in a tunnel -/

namespace TunnelState

variable {setup : TunnelSetup} {s s' : TunnelState}

/-- Whoever is told that the other side is through has all it said. -/
structure EndsWhole (setup : TunnelSetup) (s : TunnelState) : Prop where
  upload : s.server.HalfClosed →
    s.server.targetWritten = setup.target.firstPayload ++ setup.localInput
  download : s.client.Ending → s.client.localWritten = setup.targetInput

/-- What is all there stays so, since a step only adds to it. -/
theorem whole_stays {written written' whole : Bytes} (hwhole : written = whole)
    (hgrows : written <+: written') (hwithin : written' <+: whole) : written' = whole :=
  hwithin.eq_of_length_le (hwhole ▸ hgrows.length_le)

theorem Inv.upload_prefix (h : Inv setup s) :
    s.server.targetWritten <+: setup.target.firstPayload ++ setup.localInput :=
  h.upload_in_order.trans ((List.prefix_append_right_inj _).mpr ⟨_, h.client.task.script_split⟩)

theorem Inv.download_prefix (h : Inv setup s) : s.client.localWritten <+: setup.targetInput :=
  h.download_in_order.trans ⟨_, h.server.task.script_split⟩

/-- A `HalfClose` comes behind the `Open`, so it finds the server in its loop. -/
theorem Inv.relaying_of_halfClose (h : Inv setup s)
    (hs : s.step setup (.server (.recv (some (.ok halfCloseFrame)))) = some s') :
    s.server.main = .relaying := by
  obtain ⟨-, hserver, -, -, -⟩ := server_step hs
  have hnext := h.received_next hs
  refine (ServerState.waits_of_recv hserver).resolve_left fun hmain => ?_
  rw [h.server.nothing_received (by rw [hmain]; rfl), h.client.sent_eq] at hnext
  obtain ⟨rest, hrest⟩ := hnext
  split at hrest
  · cases hrest
  · cases (List.cons.inj hrest).1

theorem EndsWhole.step (h : EndsWhole setup s) (hinv : Inv setup s) {l : TunnelLabel}
    (hs : s.step setup l = some s') : EndsWhole setup s' := by
  obtain ⟨⟨-, hlocal⟩, -, htarget⟩ := hinv.step_grows hs
  have hinv' := hinv.step hs
  refine ⟨fun hend => ?_, fun hend => ?_⟩
  · have hstays : s.server.targetWritten = _ → s'.server.targetWritten = _ :=
      fun hwhole => whole_stays hwhole htarget hinv'.upload_prefix
    rcases step_server hs with ⟨sl, rfl, hserver⟩ | heq
    · rcases ServerState.step_halfClosed hserver hend with hbefore | rfl
      · exact hstays (h.upload hbefore)
      · -- the half-close is behind everything
        obtain ⟨heof, hwritten⟩ := hinv.upload_complete (hinv.relaying_of_halfClose hs) hs
        exact hstays (hinv.client.task.read_all heof ▸ hwritten)
    · exact hstays (h.upload (heq ▸ hend))
  · have hstays : s.client.localWritten = _ → s'.client.localWritten = _ :=
      fun hwhole => whole_stays hwhole hlocal hinv'.download_prefix
    rcases step_client hs with ⟨cl, rfl, hclient⟩ | heq
    · rcases ClientState.step_ending hclient hend with hbefore | ⟨hmain, rfl⟩
      · exact hstays (h.download hbefore)
      · obtain ⟨heof, hwritten⟩ := hinv.download_complete hmain hs
        exact hstays (hinv.server.task.read_all heof ▸ hwritten)
    · exact hstays (h.download (heq ▸ hend))

/-- **A half-close comes behind the last byte**, in every run. -/
theorem endsWhole_of_reachable (hr : (system setup).Reachable s) : EndsWhole setup s := by
  refine Lts.System.invariant_of_reachable _ (EndsWhole setup) ?_ ?_ s hr
  · rintro s rfl
    refine ⟨fun h => ?_, fun h => ?_⟩
    · cases h
    · rcases h with h | h <;> cases h
  · intro s l s' hr h hs
    exact h.step (inv_of_reachable hr) hs

end TunnelState

end EchProxy
