import EchProxy.Tunnel.Integrity
import EchProxy.Tunnel.Opened
import EchProxy.Tunnel.Speech

/-! # Protocol Conformance

    The two sides of a tunnel follow each other's protocol, whatever the target
    does and wherever something fails: what either says is what the other
    expects, so neither ever meets a frame it treats as an error.
-/

namespace EchProxy

open Server Fifo

namespace TunnelState

section conformance
variable {setup : TunnelSetup} {s s' : TunnelState}

/-- A queue that is gone stays so. -/
theorem sq_gone {l : TunnelLabel} (hs : s.step setup l = some s')
    (hgone : s.sq.status = .failed) : s'.sq.status = .failed := by
  cases step_iff.mp hs with
  | server _ _ hsq _ => exact (Link.offer_spec hsq).1.trans hgone
  | pumpDown hpop _ => exact (Link.pop_spec hpop).2.1.trans hgone
  | dropDown _ => rfl
  | _ => exact hgone

/-- What the two sides have said and heard. -/
structure Talk (s : TunnelState) : Prop where
  said : s.server.Said (s.sq.status = .failed)
  heard : s.client.Heard

theorem Talk.step {l : TunnelLabel} (h : Talk s) (hinv : Inv setup s)
    (hs : s.step setup l = some s') : Talk s' where
  said := by
    have hmono := h.said.mono (sq_gone hs)
    rcases step_server hs with ⟨sl, rfl, hserver⟩ | heq
    · obtain ⟨hready, -, hsq, -, -⟩ := server_step hs
      have hgone : s.sq.status = .failed → sl.frames = [] := by
        intro hfailed
        by_contra hne
        have hlive := Link.offer_live hsq hne
        rw [hfailed] at hlive
        cases hlive
      have hfail : sl = .sendFail → s.sq.status = .failed := by
        rintro rfl
        simpa [serverReady] using hready
      exact (h.said.step hinv.server hserver hgone hfail).mono (sq_gone hs)
    · rw [heq]
      exact hmono
  heard := by
    rcases step_client hs with ⟨cl, -, hclient⟩ | heq
    · exact h.heard.step hinv.client hclient
    · rw [heq]
      exact h.heard

theorem talk_of_reachable (hr : (system setup).Reachable s) : Talk s := by
  refine Lts.System.invariant_of_reachable (system setup) Talk ?_ ?_ s hr
  · rintro s rfl
    refine ⟨⟨.inl rfl, fun _ => ⟨rfl, rfl⟩, fun _ hpc => ?_, fun hpc => ?_⟩, ?_, fun hpc => ?_⟩
    · cases hpc
    · cases hpc
    · exact ⟨[], [], rfl, .inl rfl⟩
    · cases hpc
  · intro s l s' hr h hs
    exact h.step (inv_of_reachable hr) hs

/-! ## The exits that are never taken -/

/-- Neither side gives up on a frame that must not come. -/
structure Polite (s : TunnelState) : Prop where
  client : ∀ err, err.unexpected = true → s.client.main ≠ .returned (some err)
  server : ∀ why, why.unexpected = true → s.server.main.exit ≠ some why

/-- A frame the client takes first opens the tunnel or refuses it; a later one is a
    reply. -/
theorem Talk.client_frame (h : Talk s') (hinv : Inv setup s') {frames : List ServerFrame}
    {frame : ServerFrame} (hreceived : s'.client.received = frames ++ [frame]) :
    (frames = [] → frame.isOpenResult = true ∨ frame.isRefusal = true) ∧
      (frames ≠ [] → frame.isReply = true) := by
  have hpre := hinv.replied_in_order
  rw [hreceived] at hpre
  rcases h.said.spoken with hnil | ⟨only, hone, hrefusal⟩ | ⟨rest, hrest, hall⟩
  · rw [hnil] at hpre
    exact absurd (List.prefix_nil.mp hpre) (by simp)
  -- a refusal is all the server says
  · rw [hone] at hpre
    cases frames with
    | nil =>
      obtain rfl := (List.cons_prefix_cons.mp hpre).1
      exact ⟨fun _ => .inr hrefusal, fun hne => absurd rfl hne⟩
    | cons f frames =>
      have htail := (List.cons_prefix_cons.mp hpre).2
      exact absurd (List.prefix_nil.mp htail) (by simp)
  · rw [hrest] at hpre
    cases frames with
    | nil =>
      obtain rfl := (List.cons_prefix_cons.mp hpre).1
      exact ⟨fun _ => .inl rfl, fun hne => absurd rfl hne⟩
    | cons f frames =>
      have htail := (List.cons_prefix_cons.mp hpre).2
      exact ⟨fun hnil => (by cases hnil), fun _ => hall frame (htail.subset (by simp))⟩

/-- A frame the server takes first is the `Open`; a later one is none, and carries
    something. -/
theorem Talk.server_frame (h : Talk s') (hinv : Inv setup s') {frames : List ClientFrame}
    {frame : ClientFrame} (hreceived : s'.server.received = frames ++ [frame]) :
    (frames = [] → frame = openFrame setup.target) ∧
      (frames ≠ [] → frame.payload ≠ none ∧ ∀ target, frame ≠ openFrame target) := by
  have hpre := hinv.received_in_order
  rw [hreceived, hinv.client.sent_eq] at hpre
  split at hpre
  · exact absurd (List.prefix_nil.mp hpre) (by simp)
  -- `Open` comes first, and then what the task sends
  · cases frames with
    | nil =>
      obtain rfl := (List.cons_prefix_cons.mp hpre).1
      exact ⟨fun _ => rfl, fun hne => absurd rfl hne⟩
    | cons f frames =>
      refine ⟨fun hnil => (by cases hnil), fun _ => ?_⟩
      have hmem : frame ∈ s'.client.task.sent :=
        (List.cons_prefix_cons.mp hpre).2.subset (by simp)
      obtain ⟨chunks, last, hsent, hlast⟩ := h.heard.stream
      rw [hsent, List.mem_append, List.mem_map] at hmem
      rcases hmem with ⟨bytes, -, rfl⟩ | hmem
      · exact ⟨Option.some_ne_none _, fun target heq => by cases heq⟩
      · rcases hlast with rfl | rfl | ⟨reason, rfl⟩
        · cases hmem
        · obtain rfl := List.mem_singleton.mp hmem
          exact ⟨Option.some_ne_none _, fun target heq => by cases heq⟩
        · obtain rfl := List.mem_singleton.mp hmem
          exact ⟨Option.some_ne_none _, fun target heq => by cases heq⟩

theorem Polite.step {l : TunnelLabel} (h : Polite s) (hr : (system setup).Reachable s)
    (hs : s.step setup l = some s') : Polite s' where
  client := by
    intro err hbad hreturned
    have hr' : (system setup).Reachable s' := .step hr hs
    have hinv := inv_of_reachable hr
    have htalk := talk_of_reachable hr
    rcases step_client hs with ⟨cl, -, hclient⟩ | heq
    · rcases ClientState.step_unexpected hclient hbad hreturned with hbefore | ⟨frame, rfl, hat⟩
      · exact h.client err hbad hbefore
      · -- the frame is one the server has sent, in its place
        have hreceived : s'.client.received = s.client.received ++ [frame] :=
          (ClientState.step_effect hclient).received
        obtain ⟨hfirst, hlater⟩ :=
          (talk_of_reachable hr').client_frame (inv_of_reachable hr') hreceived
        rcases hat with ⟨hmain, hresult, hrefusal⟩ | ⟨hmain, hreply⟩
        · have hnil := (hinv.client.not_spawned (by rw [hmain]; rfl)).2
          rcases hfirst hnil with hok | hno
          · rw [hresult] at hok
            cases hok
          · rw [hrefusal] at hno
            cases hno
        · rw [hlater (htalk.heard.first (by rw [hmain]; rfl))] at hreply
          cases hreply
    · exact h.client err hbad (heq ▸ hreturned)
  server := by
    intro why hbad hexit
    have hr' : (system setup).Reachable s' := .step hr hs
    have hinv := inv_of_reachable hr
    rcases step_server hs with ⟨sl, -, hserver⟩ | heq
    · rcases ServerState.step_unexpected hserver hbad hexit with hbefore | ⟨frame, rfl, hat⟩
      · exact h.server why hbad hbefore
      · have hreceived : s'.server.received = s.server.received ++ [frame] :=
          (ServerState.step_effect hserver).received
        obtain ⟨hfirst, hlater⟩ :=
          (talk_of_reachable hr').server_frame (inv_of_reachable hr') hreceived
        rcases hat with ⟨hmain, hnot⟩ | ⟨hmain, hbadFrame⟩
        · have hnil := hinv.server.nothing_received (by rw [hmain]; rfl)
          exact hnot _ (hfirst hnil)
        · -- in the loop there is a target, so an `Open` was received
          have hne : s.server.received ≠ [] := by
            have htarget := hinv.server.has_target (by rw [hmain]; rfl)
            obtain ⟨target, hhead⟩ := opened_of_target hr htarget
            intro hnil
            rw [hnil] at hhead
            cases hhead
          obtain ⟨hsome, hnot⟩ := hlater hne
          rcases hbadFrame with hnone | ⟨target, htarget⟩
          · exact hsome hnone
          · exact hnot target htarget
    · exact h.server why hbad (heq ▸ hexit)

theorem polite_of_reachable (hr : (system setup).Reachable s) : Polite s := by
  refine Lts.System.invariant_of_reachable (system setup) Polite ?_ ?_ s hr
  · rintro s rfl
    exact ⟨fun _ _ hmain => (by cases hmain), fun _ _ hexit => (by cases hexit)⟩
  · intro s l s' hr h hs
    exact h.step hr hs

/-! ## The first payload -/

/-- When the server is about to report success, the first payload is written. -/
theorem payload_at_open (hr : (system setup).Reachable s) (hmain : s.server.main = .openOk) :
    setup.target.firstPayload <+: s.server.targetWritten := by
  have hinv := inv_of_reachable hr
  have hwritten := hinv.server.written_eq (by simp [hmain, ServerPc.phase])
  have hnone : ServerPc.openOk.pending = [] := rfl
  rw [hmain, hnone, List.append_nil] at hwritten
  obtain ⟨target, hhead⟩ := opened_of_target hr (hinv.server.has_target (by rw [hmain]; rfl))
  obtain rfl := hinv.first_frame hhead
  obtain ⟨rest, hreceived⟩ : ∃ rest, s.server.received = openFrame setup.target :: rest := by
    cases hlist : s.server.received with
    | nil =>
      rw [hlist] at hhead
      cases hhead
    | cons frame rest =>
      rw [hlist, List.head?_cons, Option.some.injEq] at hhead
      exact ⟨rest, by rw [hhead]⟩
  rw [hwritten, ServerState.receivedBytes, hreceived]
  exact List.prefix_append _ _

/-- Success is reported only after the first payload is written. -/
theorem payload_written (hr : (system setup).Reachable s) :
    ∀ error, openResultFrame true error ∈ s.server.sent →
      setup.target.firstPayload <+: s.server.targetWritten := by
  refine Lts.System.invariant_of_reachable (system setup) (fun s => ∀ error,
    openResultFrame true error ∈ s.server.sent →
      setup.target.firstPayload <+: s.server.targetWritten) ?_ ?_ s hr
  · rintro s rfl error hmem
    cases hmem
  · intro s l s' hr h hs error hmem
    rcases step_server hs with ⟨sl, -, hserver⟩ | heq
    · have hgrow := ((inv_of_reachable hr).server.step_grows hserver).2
      rw [(ServerState.step_effect hserver).sent, List.mem_append] at hmem
      rcases hmem with hold | hnew
      · exact (h error hold).trans hgrow
      · -- only the opening sends this frame
        have hopen : s.server.main = .openOk := by
          cases ServerState.step_speaks (talk_of_reachable hr).said.staged hserver with
          | task hlabel _ htask =>
            rw [hlabel] at hnew
            cases ServerState.task_reply (inv_of_reachable hr).server htask _ hnew
          | quiet _ _ hframes _ =>
            rw [hframes] at hnew
            cases hnew
          | refuse _ _ _ hframes hrefusal _ =>
            rw [hframes, List.mem_singleton] at hnew
            rw [← hnew] at hrefusal
            cases hrefusal
          | opens hmain => exact hmain
          | late _ _ hframes _ => cases hframes _ hnew
        exact (payload_at_open hr hopen).trans hgrow
    · rw [heq] at hmem ⊢
      exact h error hmem

/-! ## The guarantee -/

/-- Each side keeps to the protocol, on the histories of a run. -/
structure Conformant (setup : TunnelSetup) (s : TunnelState) : Prop where
  /-- The server reports the outcome of the open at most once. -/
  one_result : (s.server.sent.filter ServerFrame.isOpenResult).length ≤ 1
  /-- Every data and half-close frame of the server comes after a success. -/
  after_success : ∀ before frame after, s.server.sent = before ++ frame :: after →
    frame.isStream = true → ∃ error, openResultFrame true error ∈ before
  /-- Nothing of the target's stream follows its half-close. -/
  half_close_last : ∀ before after, s.server.sent = before ++ serverHalfClose :: after →
    ∀ bytes, serverData bytes ∉ after
  /-- Success is reported only with a target that has the first payload. -/
  success_earned : ∀ error, openResultFrame true error ∈ s.server.sent →
    s.server.target ≠ none ∧ setup.target.firstPayload <+: s.server.targetWritten
  /-- The client says `Open`, then data, then at most one half-close or reset. -/
  client_stream : s.client.sent = [] ∨
    ∃ frames, s.client.sent = openFrame setup.target :: frames ∧
      ReadTask.Stream clientKit frames
  polite : Polite s

/-- **Client and server never violate each other's protocol**, in any interleaving
    and under any failure. -/
theorem protocol_conformance (hr : (system setup).Reachable s) : Conformant setup s := by
  have hinv := inv_of_reachable hr
  have htalk := talk_of_reachable hr
  exact
    { one_result := htalk.said.one_result
      after_success := fun _ _ _ hsplit hstream => htalk.said.after_success hsplit hstream
      half_close_last := fun _ _ hsplit => hinv.server.half_close_last hsplit
      success_earned := fun error hmem =>
        ⟨hinv.server.open_ok error hmem, payload_written hr error hmem⟩
      client_stream := by
        rw [hinv.client.sent_eq]
        split
        · exact .inl rfl
        · exact .inr ⟨_, rfl, htalk.heard.stream⟩
      polite := polite_of_reachable hr }

end conformance

/-- The conversation of a run in which the local side speaks and closes. -/
theorem protocol_conformance_example :
    ∃ s, (system exampleSetup).run (fresh exampleSetup) (exampleOpen ++ exampleUpload) = some s ∧
      s.client.sent = [openFrame exampleSetup.target, dataFrame [2, 3], halfCloseFrame] ∧
      s.server.sent = [openResultFrame true ""] ∧ Conformant exampleSetup s := by
  obtain ⟨s, hrun⟩ : ∃ s, (system exampleSetup).run (fresh exampleSetup)
      (exampleOpen ++ exampleUpload) = some s := ⟨_, rfl⟩
  have hseen : ((system exampleSetup).run (fresh exampleSetup)
      (exampleOpen ++ exampleUpload)).map (fun s => (s.client.sent, s.server.sent))
      = some ([openFrame exampleSetup.target, dataFrame [2, 3], halfCloseFrame],
          [openResultFrame true ""]) := rfl
  rw [hrun, Option.map_some, Option.some.injEq, Prod.mk.injEq] at hseen
  have hr : (system exampleSetup).Reachable s := Lts.System.reachable_of_run (.init rfl) hrun
  exact ⟨s, hrun, hseen.1, hseen.2, protocol_conformance hr⟩

end TunnelState

end EchProxy
