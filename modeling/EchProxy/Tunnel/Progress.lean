import EchProxy.Tunnel.Calm
import EchProxy.Tunnel.Enforcement

/-! # Calm Runs Complete

    A calm run that can take no further step has both relays returned, both
    tasks through and all queues and streams empty.  So a complete calm run
    delivers all frames that were sent, and the only bytes it can lose are
    those the client's reading task never got to send.
-/

namespace EchProxy

open Server Fifo

/-- The server lets the tunnel open: the request is let in, and for some
    answer of the resolver the policy admits the target. -/
structure TunnelSetup.Opens (setup : TunnelSetup) : Prop where
  let_in : ∃ token,
    setup.server.auth.authenticate setup.server.toStr setup.metadata = .ok token
  admits : ∃ answer addrs, setup.server.policy.resolveTarget setup.server.text
    (fun _ _ => answer) setup.target.targetHost setup.target.targetPort = .ok addrs

namespace TunnelState

/-! ## Where a calm run can be -/

/-- The invariant of calm runs. -/
structure Calm (setup : TunnelSetup) (s : TunnelState) : Prop where
  inv : Inv setup s
  client : s.client.Calm
  server : s.server.Calm
  cq_live : s.cq.status = .live
  c2s_up : s.c2s.status ≠ .failed
  /-- The way up ends when the client is through. -/
  c2s_ended : s.c2s.status = .ended → s.clientSilent = true ∧ s.cq.queue = []
  /-- The way down breaks only once the client has returned. -/
  down : s.sq.status ≠ .live ∨ s.s2c.status = .failed → s.client.main = .returned none
  s2c_ended : s.s2c.status = .ended → s.serverSilent = true
  requested : s.client.main ≠ .start → s.client.main ≠ .preparing → s.requested = true
  /-- The server leaves its loop at the end of the way up. -/
  server_end : s.server.main.ending = true → s.c2s.status = .ended ∧ s.c2s.queue = []

section calm
variable {setup : TunnelSetup} {s s' : TunnelState}

theorem calm_fresh (setup : TunnelSetup) : Calm setup (fresh setup) where
  inv := inv_fresh setup
  client := ClientState.calm_fresh _
  server := ServerState.calm_fresh _
  cq_live := rfl
  c2s_up := fun h => by cases h
  c2s_ended := fun h => by cases h
  down := fun h => by rcases h with h | h <;> simp [fresh] at h
  s2c_ended := fun h => by cases h
  requested := fun h => absurd rfl h
  server_end := fun h => by cases h

/-- The way up does not break in a calm run. -/
theorem Calm.c2s_over (h : Calm setup s) (hover : s.c2s.status ≠ .live) :
    s.c2s.status = .ended := by
  cases hstatus : s.c2s.status with
  | live => exact absurd hstatus hover
  | failed => exact absurd hstatus h.c2s_up
  | ended => rfl

theorem clientSilent_iff : s.clientSilent = true ↔
    (∃ err, s.client.main = .returned err) ∧
      (s.client.task.pc = .idle ∨ s.client.task.pc = .finished) := by
  unfold clientSilent
  cases s.client.main <;> cases s.client.task.pc <;> simp

theorem serverSilent_iff : s.serverSilent = true ↔
    (∃ why, s.server.main = .returned why) ∧
      (s.server.task.pc = .idle ∨ s.server.task.pc = .finished) := by
  unfold serverSilent
  cases s.server.main <;> cases s.server.task.pc <;> simp

/-- Once the server has left its loop, the client has returned. -/
theorem Calm.client_returned (h : Calm setup s) (hend : s.server.main.ending = true) :
    s.client.main = .returned none := by
  obtain ⟨hsilent, -⟩ := h.c2s_ended (h.server_end hend).1
  obtain ⟨⟨err, hmain⟩, -⟩ := clientSilent_iff.mp hsilent
  cases err with
  | none => exact hmain
  | some err => exact absurd hmain (h.client.no_error err)

/-- What the server has sent, when it has sent something. -/
theorem Calm.server_sent (h : Calm setup s) (hne : s.server.sent ≠ []) :
    s.server.sent = openResultFrame true "" :: s.server.task.sent := by
  have hsent := h.server.sent_eq
  split at hsent
  · exact hsent
  · exact absurd hsent hne

/-- The client gets what it waits for. -/
theorem Calm.client_expects (h : Calm setup s) {item : StreamItem ServerFrame}
    (hcalm : (TunnelLabel.client (.recv item)).calm setup s = true)
    (hs : s.step setup (.client (.recv item)) = some s') : s.client.Expects item := by
  rcases item with _ | (status | frame)
  · -- the stream is over only after the client has returned
    obtain ⟨-, -, -, hreceive, -⟩ := client_step hs
    have hover : s.s2c.queue = [] ∧ s.s2c.status ≠ .live := by
      simp only [ClientLabel.item, receiveIf, receive, Option.ite_none_right_eq_some] at hreceive
      exact hreceive.1
    have hreturned : s.client.main = .returned none := by
      cases hstatus : s.s2c.status with
      | live => exact absurd hstatus hover.2
      | failed => exact h.down (.inr hstatus)
      | ended =>
        obtain ⟨⟨why, hmain⟩, -⟩ := serverSilent_iff.mp (h.s2c_ended hstatus)
        exact h.client_returned (by rw [hmain]; rfl)
    constructor <;> intro hmain <;> rw [hreturned] at hmain <;> cases hmain
  · cases hcalm
  · have hpre := h.inv.replied_next hs
    -- the server has sent something, so the frames are its `OpenResult` and its task's
    have hsent := h.server_sent (List.ne_nil_of_length_pos (by
      have hlen := hpre.length_le
      rw [List.length_append, List.length_singleton] at hlen
      omega))
    rw [hsent] at hpre
    constructor
    · intro hmain
      rw [(h.inv.client.not_spawned (by rw [hmain]; rfl)).2, List.nil_append] at hpre
      rw [(List.cons_prefix_cons.mp hpre).1]
    · intro hmain
      obtain ⟨first, rest, hcons⟩ := List.exists_cons_of_ne_nil
        (h.client.received_some (by rw [hmain]; rfl))
      rw [hcons, List.cons_append] at hpre
      -- the `OpenResult` was received, so this frame comes from the task
      have hin : frame ∈ s.server.task.sent :=
        (List.cons_prefix_cons.mp hpre).2.subset (by simp)
      rcases h.server.task.frames frame (List.mem_append_left _ hin) with rfl | ⟨bs, rfl⟩
      · exact .inl rfl
      · exact .inr ⟨bs, rfl⟩

/-- The server gets what it waits for. -/
theorem Calm.server_expects (h : Calm setup s) {item : StreamItem ClientFrame}
    (hcalm : (TunnelLabel.server (.recv item)).calm setup s = true)
    (hs : s.step setup (.server (.recv item)) = some s') : s.server.Expects item := by
  rcases item with _ | (status | frame)
  · obtain ⟨-, -, -, hreceive, -⟩ := server_step hs
    have hover : s.c2s.queue = [] ∧ s.c2s.status ≠ .live := by
      simp only [ServerLabel.item, receiveIf, receive, Option.ite_none_right_eq_some] at hreceive
      exact hreceive.1
    refine ⟨fun hmain => ?_, fun _ => .inl rfl⟩
    -- the client cannot have returned: it has got no half-close yet
    have hended : s.c2s.status = .ended := h.c2s_over hover.2
    obtain ⟨⟨err, hreturned⟩, -⟩ := clientSilent_iff.mp (h.c2s_ended hended).1
    have hmem : serverHalfClose ∈ s.client.received := by
      apply h.client.half_close.mpr
      cases err with
      | none => exact .inr hreturned
      | some err => exact absurd hreturned (h.client.no_error err)
    have hunsent := h.server.sent_eq
    rw [hmain] at hunsent
    have hin := h.inv.replied_in_order.subset hmem
    rw [hunsent] at hin
    cases hin
  · cases hcalm
  · have hpre := h.inv.received_next hs
    -- nothing can be received before the client has sent something
    have hstart : s.client.main ≠ .start := by
      intro hstart
      rw [h.inv.client.sent_eq, if_pos hstart] at hpre
      have hlen := hpre.length_le
      rw [List.length_append, List.length_singleton, List.length_nil] at hlen
      omega
    rw [h.inv.client.sent_eq, if_neg hstart] at hpre
    constructor
    · intro hmain
      rw [h.inv.server.nothing_received (by rw [hmain]; rfl), List.nil_append] at hpre
      exact ⟨setup.target, by rw [(List.cons_prefix_cons.mp hpre).1]⟩
    · intro hmain
      obtain ⟨first, rest, hcons⟩ := List.exists_cons_of_ne_nil
        (h.server.received_some (by simp [hmain, ServerPc.phase]))
      rw [hcons, List.cons_append] at hpre
      -- `Open` was received, so this frame comes from the task
      have hin : frame ∈ s.client.task.sent :=
        (List.cons_prefix_cons.mp hpre).2.subset (by simp)
      rcases h.client.task.frames frame (List.mem_append_left _ hin) with rfl | ⟨bs, rfl⟩
      · exact .inr (.inl rfl)
      · exact .inr (.inr ⟨bs, rfl⟩)

/-- A client step keeps a run calm. -/
theorem Calm.client_step (h : Calm setup s) {l : ClientLabel}
    (hcalm : (TunnelLabel.client l).calm setup s = true)
    (hs : s.step setup (.client l) = some s') : Calm setup s' := by
  have hinv := h.inv.step hs
  have hexpects : ∀ item, l = .recv item → s.client.Expects item := by
    rintro item rfl
    exact h.client_expects hcalm hs
  obtain ⟨-, hclient, hcq, hs2c, heq⟩ := TunnelState.client_step hs
  obtain ⟨hcqstatus, -⟩ := Link.offer_spec hcq
  obtain ⟨-, -, -, hs2cstatus⟩ := receiveIf_spec hs2c
  have hserver : s'.server = s.server := by rw [heq]
  have hc2s : s'.c2s = s.c2s := by rw [heq]
  have hsq : s'.sq = s.sq := by rw [heq]
  refine
    { inv := hinv
      client := h.client.step h.inv.client hcalm hexpects hclient
      server := hserver ▸ h.server
      cq_live := hcqstatus.trans h.cq_live
      c2s_up := hc2s ▸ h.c2s_up
      c2s_ended := fun hended => ?_
      down := fun hbroken => ?_
      s2c_ended := fun hended => ?_
      requested := fun hstart hpreparing => ?_
      server_end := fun hend => ?_ }
  · -- once the way up has ended the client takes no step
    rw [hc2s] at hended
    obtain ⟨⟨err, hmain⟩, htask⟩ := clientSilent_iff.mp (h.c2s_ended hended).1
    rw [ClientState.step_stuck hmain htask] at hclient
    cases hclient
  · rw [hsq, hs2cstatus] at hbroken
    exact ClientState.step_returned (h.down hbroken) hclient
  · rw [hs2cstatus] at hended
    have hsilent := h.s2c_ended hended
    unfold serverSilent
    rw [hserver]
    exact hsilent
  · obtain ⟨hfirst, hsecond⟩ := ClientState.step_opening h.inv.client hcalm hclient
    rw [heq]
    show (s.requested || decide (s'.client.main = .calling)) = true
    by_cases hwas : s.client.main = .start
    · exact absurd (hfirst hwas) hpreparing
    · by_cases hwas' : s.client.main = .preparing
      · simp [hsecond hwas']
      · simp [h.requested hwas hwas']
  · rw [hc2s]
    exact h.server_end (hserver ▸ hend)

/-- A server step keeps a run calm. -/
theorem Calm.server_step (h : Calm setup s) {l : ServerLabel}
    (hcalm : (TunnelLabel.server l).calm setup s = true)
    (hs : s.step setup (.server l) = some s') : Calm setup s' := by
  have hinv := h.inv.step hs
  have hexpects : ∀ item, l = .recv item → s.server.Expects item := by
    rintro item rfl
    exact h.server_expects hcalm hs
  obtain ⟨-, hserver, hsq, hc2s, heq⟩ := TunnelState.server_step hs
  obtain ⟨hsqstatus, -⟩ := Link.offer_spec hsq
  obtain ⟨-, -, hc2squeue, hc2sstatus⟩ := receiveIf_spec hc2s
  have hclient : s'.client = s.client := by rw [heq]
  have hcq : s'.cq = s.cq := by rw [heq]
  have hs2c : s'.s2c = s.s2c := by rw [heq]
  refine
    { inv := hinv
      client := hclient ▸ h.client
      server := h.server.step h.inv.server hcalm hexpects hserver
      cq_live := hcq ▸ h.cq_live
      c2s_up := hc2sstatus ▸ h.c2s_up
      c2s_ended := fun hended => ?_
      down := fun hbroken => ?_
      s2c_ended := fun hended => ?_
      requested := fun hstart hpreparing => ?_
      server_end := fun hend => ?_ }
  · rw [hc2sstatus] at hended
    unfold clientSilent
    rw [hclient, hcq]
    exact h.c2s_ended hended
  · rw [hclient]
    rw [hsqstatus, hs2c] at hbroken
    exact h.down hbroken
  · -- once the way down has ended the server takes no step
    rw [hs2c] at hended
    obtain ⟨⟨why, hmain⟩, htask⟩ := serverSilent_iff.mp (h.s2c_ended hended)
    rw [ServerState.step_stuck hmain htask] at hserver
    cases hserver
  · rw [hclient] at hstart hpreparing
    rw [heq]
    exact h.requested hstart hpreparing
  · rw [hc2sstatus]
    rcases h.server.step_ending hcalm hexpects hserver hend with hwas | rfl
    · obtain ⟨hended, hempty⟩ := h.server_end hwas
      rw [hempty] at hc2squeue
      exact ⟨hended, (List.append_eq_nil_iff.mp hc2squeue.symm).2⟩
    -- the end of the stream is received when the way up is over and drained
    · simp only [ServerLabel.item, receiveIf, receive, Option.ite_none_right_eq_some,
        Option.some.injEq] at hc2s
      obtain ⟨⟨hempty, hover⟩, hsame⟩ := hc2s
      rw [← hsame]
      exact ⟨h.c2s_over hover, hempty⟩

/-- **Calm steps keep a run calm.** -/
theorem Calm.step (h : Calm setup s) {l : TunnelLabel} (hcalm : l.calm setup s = true)
    (hs : s.step setup l = some s') : Calm setup s' := by
  have hinv := h.inv.step hs
  cases step_iff.mp hs with
  | client _ _ _ _ => exact h.client_step hcalm hs
  | server _ _ _ _ => exact h.server_step hcalm hs
  | cutUp _ => cases hcalm
  | dropUp _ => cases hcalm
  | pumpUp _ hpop hpush =>
    obtain ⟨-, hcqstatus, -⟩ := Link.pop_spec hpop
    obtain ⟨hlive, hlive', -⟩ := Link.push_spec hpush
    -- the server ends only after the way up has
    have hnot : s.server.main.ending = true → False := fun hend => by
      rw [(h.server_end hend).1] at hlive
      cases hlive
    exact
      { inv := hinv
        client := h.client
        server := h.server
        cq_live := hcqstatus.trans h.cq_live
        c2s_up := by simp [hlive']
        c2s_ended := fun hended => by
          rw [hlive'] at hended
          cases hended
        down := h.down
        s2c_ended := h.s2c_ended
        requested := h.requested
        server_end := fun hend => (hnot hend).elim }
  | pumpDown hpop hpush =>
    obtain ⟨-, hsqstatus, -⟩ := Link.pop_spec hpop
    obtain ⟨-, hlive', -⟩ := Link.push_spec hpush
    exact
      { inv := hinv
        client := h.client
        server := h.server
        cq_live := h.cq_live
        c2s_up := h.c2s_up
        c2s_ended := h.c2s_ended
        down := fun hbroken => by
          rcases hbroken with hbroken | hbroken
          · exact h.down (.inl (hsqstatus ▸ hbroken))
          · rw [hlive'] at hbroken
            cases hbroken
        s2c_ended := fun hended => by
          rw [hlive'] at hended
          cases hended
        requested := h.requested
        server_end := h.server_end }
  | endUp _ hsilent hempty hfinish =>
    obtain ⟨hlive, hended, -⟩ := Link.finish_spec hfinish
    exact
      { inv := hinv
        client := h.client
        server := h.server
        cq_live := h.cq_live
        c2s_up := by simp [hended]
        c2s_ended := fun _ => ⟨hsilent, hempty⟩
        down := h.down
        s2c_ended := h.s2c_ended
        requested := h.requested
        server_end := fun hend => by
          rw [(h.server_end hend).1] at hlive
          cases hlive }
  | endDown hsilent _ hfinish =>
    obtain ⟨-, hended, -⟩ := Link.finish_spec hfinish
    exact
      { inv := hinv
        client := h.client
        server := h.server
        cq_live := h.cq_live
        c2s_up := h.c2s_up
        c2s_ended := h.c2s_ended
        down := fun hbroken => by
          rcases hbroken with hbroken | hbroken
          · exact h.down (.inl hbroken)
          · rw [hended] at hbroken
            cases hbroken
        s2c_ended := fun _ => hsilent
        requested := h.requested
        server_end := h.server_end }
  | cutDown _ | dropDown _ =>
    -- only a client that has returned lets go of the way down
    have hreturned : s.client.main = .returned none := by
      simp only [TunnelLabel.calm] at hcalm
      split at hcalm
      · next err hmain =>
        cases err with
        | none => exact hmain
        | some err => exact absurd hmain (h.client.no_error err)
      · cases hcalm
    exact
      { inv := hinv
        client := h.client
        server := h.server
        cq_live := h.cq_live
        c2s_up := h.c2s_up
        c2s_ended := h.c2s_ended
        down := fun _ => hreturned
        s2c_ended := fun hended => by first | exact h.s2c_ended hended | cases hended
        requested := h.requested
        server_end := h.server_end }

/-- Every state of a calm run is calm. -/
theorem calm_of_reachable (hr : (calmSystem setup).Reachable s) : Calm setup s := by
  refine Lts.System.invariant (calmSystem setup) (Calm setup) ?_ ?_ s hr
  · rintro s rfl
    exact calm_fresh setup
  · intro s l s' h hs
    obtain ⟨hcalm, hs⟩ := Lts.System.restrict_step_iff.mp hs
    exact h.step hcalm hs

/-! ## A calm run that cannot go on -/

/-- A client step is possible once the other parts are ready for it. -/
theorem client_enabled {l : ClientLabel} {client : ClientState} {cq : Link ClientFrame}
    {s2c : Link ServerFrame} (hready : s.clientReady l = true)
    (hclient : s.client.step setup.target l = some client)
    (hcq : s.cq.offer outboundQueue (l.frames setup.target) = some cq)
    (hs2c : receiveIf s.s2c l.item = some s2c) : s.step setup (.client l) ≠ none :=
  Option.ne_none_iff_exists'.mpr ⟨_, step_iff.mpr (.client hready hclient hcq hs2c)⟩

/-- A server step is possible once the other parts are ready for it. -/
theorem server_enabled {l : ServerLabel} {server : ServerState} {sq : Link ServerFrame}
    {c2s : Link ClientFrame} (hready : s.serverReady l = true)
    (hserver : s.server.step setup.server setup.metadata l = some server)
    (hsq : s.sq.offer outboundQueue l.frames = some sq)
    (hc2s : receiveIf s.c2s l.item = some c2s) : s.step setup (.server l) ≠ none :=
  Option.ne_none_iff_exists'.mpr ⟨_, step_iff.mpr (.server hready hserver hsq hc2s)⟩

/-- A frame under way can be taken. -/
theorem receive_enabled {F : Type} [DecidableEq F] {q : Link F} {frame : F} {rest : List F}
    (hqueue : q.queue = frame :: rest) : ∃ q', receive q (some (.ok frame)) = some q' := by
  obtain ⟨q', hpop⟩ := Link.pop_isSome hqueue
  exact ⟨q', by simp [receive, hpop]⟩

/-- There is room in an empty queue. -/
theorem room {α : Type} {q : Link α} (hlive : q.status = .live) (hempty : q.queue = []) (a : α) :
    ∃ q', q.offer outboundQueue [a] = some q' := by
  refine Link.offer_isSome hlive ?_ a
  rw [hempty]
  show 0 < outboundQueue
  decide

/-- No calm step is possible, the cancellation of the client's task apart. -/
def Stuck (setup : TunnelSetup) (s : TunnelState) : Prop :=
  ∀ l, l.calm setup s = true → l ≠ .client (.task .cancel) → s.step setup l = none

/-- In a stuck state the client has no step that needs neither queue nor
    stream. -/
theorem Stuck.client (h : Stuck setup s) {l : ClientLabel} (hcalm : l.calm = true)
    (hcancel : l ≠ .task .cancel) (hready : s.clientReady l = true)
    (hframes : l.frames setup.target = []) (hitem : l.item = none) :
    s.client.step setup.target l = none := by
  by_contra hsome
  obtain ⟨client, hclient⟩ := Option.ne_none_iff_exists'.mp hsome
  have hcq : s.cq.offer outboundQueue (l.frames setup.target) = some s.cq := by
    rw [hframes, Link.offer_nil]
  have hs2c : receiveIf s.s2c l.item = some s.s2c := by
    rw [hitem]
    rfl
  refine client_enabled hready hclient hcq hs2c (h (.client l) hcalm ?_)
  exact fun heq => hcancel (TunnelLabel.client.inj heq)

/-- Nor has it anything to send while its queue is empty. -/
theorem Stuck.client_send (h : Stuck setup s) {l : ClientLabel} {frame : ClientFrame}
    (hcalm : l.calm = true) (hcancel : l ≠ .task .cancel) (hready : s.clientReady l = true)
    (hframes : l.frames setup.target = [frame]) (hitem : l.item = none)
    (hlive : s.cq.status = .live) (hempty : s.cq.queue = []) :
    s.client.step setup.target l = none := by
  by_contra hsome
  obtain ⟨client, hclient⟩ := Option.ne_none_iff_exists'.mp hsome
  obtain ⟨cq, hcq⟩ := room hlive hempty frame
  have hs2c : receiveIf s.s2c l.item = some s.s2c := by
    rw [hitem]
    rfl
  refine client_enabled hready hclient (hframes ▸ hcq) hs2c (h (.client l) hcalm ?_)
  exact fun heq => hcancel (TunnelLabel.client.inj heq)

/-- Nor is there a frame under way that it waits for. -/
theorem Stuck.client_recv (h : Stuck setup s)
    (hmain : s.client.main = .awaitOpen ∨ s.client.main = .relaying) : s.s2c.queue = [] := by
  by_contra hne
  obtain ⟨frame, rest, hqueue⟩ := List.exists_cons_of_ne_nil hne
  obtain ⟨s2c, hs2c⟩ := receive_enabled hqueue
  have hstep : ∃ client,
      s.client.step setup.target (.recv (some (.ok frame))) = some client := by
    rcases hmain with hmain | hmain <;> simp [ClientState.step, hmain]
  obtain ⟨client, hclient⟩ := hstep
  exact client_enabled rfl hclient rfl hs2c (h (.client (.recv (some (.ok frame)))) rfl (by simp))

/-- The same three facts about the server. -/
theorem Stuck.server (h : Stuck setup s) {l : ServerLabel}
    (hcalm : l.calm setup.server setup.metadata s.server = true)
    (hready : s.serverReady l = true) (hframes : l.frames = []) (hitem : l.item = none) :
    s.server.step setup.server setup.metadata l = none := by
  by_contra hsome
  obtain ⟨server, hserver⟩ := Option.ne_none_iff_exists'.mp hsome
  have hsq : s.sq.offer outboundQueue l.frames = some s.sq := by
    rw [hframes, Link.offer_nil]
  have hc2s : receiveIf s.c2s l.item = some s.c2s := by
    rw [hitem]
    rfl
  exact server_enabled hready hserver hsq hc2s (h (.server l) hcalm (by simp))

theorem Stuck.server_send (h : Stuck setup s) {l : ServerLabel} {frame : ServerFrame}
    (hcalm : l.calm setup.server setup.metadata s.server = true)
    (hready : s.serverReady l = true) (hframes : l.frames = [frame]) (hitem : l.item = none)
    (hlive : s.sq.status = .live) (hempty : s.sq.queue = []) :
    s.server.step setup.server setup.metadata l = none := by
  by_contra hsome
  obtain ⟨server, hserver⟩ := Option.ne_none_iff_exists'.mp hsome
  obtain ⟨sq, hsq⟩ := room hlive hempty frame
  have hc2s : receiveIf s.c2s l.item = some s.c2s := by
    rw [hitem]
    rfl
  exact server_enabled hready hserver (hframes ▸ hsq) hc2s (h (.server l) hcalm (by simp))

theorem Stuck.server_recv (h : Stuck setup s)
    (hmain : s.server.main = .waitOpen ∨ s.server.main = .relaying) : s.c2s.queue = [] := by
  by_contra hne
  obtain ⟨frame, rest, hqueue⟩ := List.exists_cons_of_ne_nil hne
  obtain ⟨c2s, hc2s⟩ := receive_enabled hqueue
  have hstep : ∃ server, s.server.step setup.server setup.metadata
      (.recv (some (.ok frame))) = some server := by
    rcases hmain with hmain | hmain <;> simp [ServerState.step, hmain]
  obtain ⟨server, hserver⟩ := hstep
  exact server_enabled rfl hserver rfl hc2s (h (.server (.recv (some (.ok frame)))) rfl (by simp))

/-- The server is not in a `write_all`: the target takes a byte, or none is
    left. -/
theorem Stuck.not_writing (h : Stuck setup s) (rest : Bytes) :
    ¬ (s.server.main = .writingFirst rest ∨ s.server.main = .writing rest) := by
  intro hmain
  cases rest with
  | nil =>
    have hnone := h.server (l := .targetWriteDone) rfl rfl rfl rfl
    rcases hmain with hmain | hmain <;> simp [ServerState.step, hmain] at hnone
  | cons b rest =>
    have hnone := h.server (l := .targetWrite 1) rfl rfl rfl rfl
    rcases hmain with hmain | hmain <;> simp [ServerState.step, hmain] at hnone

/-! ## What is left in a stuck state: nothing -/

/-- The request is on its way. -/
theorem Calm.requested_of_stuck (h : Calm setup s) (hstuck : Stuck setup s) :
    s.requested = true ∧ s.client.main ≠ .start := by
  have hstart : s.client.main ≠ .start := by
    intro hmain
    have hempty : s.cq.queue = [] := by
      have horder := s.cq.in_order
      rw [h.inv.wired.cq_sent, h.inv.client.sent_eq, if_pos hmain] at horder
      exact (List.append_eq_nil_iff.mp (List.prefix_nil.mp horder)).2
    have hnone := hstuck.client_send (l := .sendOpen) rfl (by simp) rfl rfl rfl h.cq_live hempty
    simp [ClientState.step, hmain] at hnone
  have hpreparing : s.client.main ≠ .preparing := by
    intro hmain
    have hnone := hstuck.client (l := .tokenOk) rfl (by simp) rfl rfl rfl
    simp [ClientState.step, hmain] at hnone
  exact ⟨h.requested hstart hpreparing, hstart⟩

/-- The client's queue is drained. -/
theorem Calm.cq_empty (h : Calm setup s) (hstuck : Stuck setup s) : s.cq.queue = [] := by
  by_contra hne
  obtain ⟨frame, rest, hqueue⟩ := List.exists_cons_of_ne_nil hne
  obtain ⟨cq, hpop⟩ := Link.pop_isSome hqueue
  have hnone := hstuck .pumpUp rfl (by simp)
  cases hstatus : s.c2s.status with
  | live =>
    obtain ⟨c2s, hpush⟩ := Link.push_isSome hstatus frame
    rw [step_iff.mpr (.pumpUp (h.requested_of_stuck hstuck).1 hpop hpush)] at hnone
    cases hnone
  | ended => exact hne (h.c2s_ended hstatus).2
  | failed => exact h.c2s_up hstatus

/-- So is the server's, as long as the way down is open. -/
theorem sq_empty (hstuck : Stuck setup s) (hlive : s.s2c.status = .live) : s.sq.queue = [] := by
  by_contra hne
  obtain ⟨frame, rest, hqueue⟩ := List.exists_cons_of_ne_nil hne
  obtain ⟨sq, hpop⟩ := Link.pop_isSome hqueue
  obtain ⟨s2c, hpush⟩ := Link.push_isSome hlive frame
  have hnone := hstuck .pumpDown rfl (by simp)
  rw [step_iff.mpr (.pumpDown hpop hpush)] at hnone
  cases hnone

/-- The way down is open until the client has returned. -/
theorem Calm.s2c_live (h : Calm setup s) (hmain : s.client.main ≠ .returned none) :
    s.sq.status = .live ∧ s.s2c.status = .live := by
  have hdown := mt h.down hmain
  rw [not_or, not_not] at hdown
  refine ⟨hdown.1, ?_⟩
  cases hstatus : s.s2c.status with
  | live => rfl
  | failed => exact absurd hstatus hdown.2
  | ended =>
    obtain ⟨⟨why, hreturned⟩, -⟩ := serverSilent_iff.mp (h.s2c_ended hstatus)
    exact absurd (h.client_returned (by rw [hreturned]; rfl)) hmain

/-- Everything the client sent has arrived. -/
theorem Calm.all_received (h : Calm setup s) (hstuck : Stuck setup s)
    (hempty : s.c2s.queue = []) : s.server.received = s.client.sent := by
  rw [h.inv.wired.server_received, ← h.inv.wired.cq_sent]
  exact series_drained h.inv.wired.c2s_sent (by simp [h.cq_live]) h.c2s_up
    (h.cq_empty hstuck) hempty

/-- Everything the server sent has arrived, if the client is still there. -/
theorem Calm.all_replied (h : Calm setup s) (hstuck : Stuck setup s)
    (hmain : s.client.main = .awaitOpen ∨ s.client.main = .relaying) :
    s.client.received = s.server.sent := by
  have hopen : s.client.main ≠ .returned none := by
    rcases hmain with hmain | hmain <;> simp [hmain]
  obtain ⟨hsq, hs2c⟩ := h.s2c_live hopen
  rw [h.inv.wired.client_received, ← h.inv.wired.sq_sent]
  exact series_drained h.inv.wired.s2c_sent (by simp [hsq]) (by simp [hs2c])
    (sq_empty hstuck hs2c) (hstuck.client_recv hmain)

/-- A client that has returned got a half-close, so the server sent one. -/
theorem Calm.half_close_sent (h : Calm setup s) (hmain : s.client.main = .returned none) :
    serverHalfClose ∈ s.server.task.sent := by
  have hmem := h.inv.replied_in_order.subset (h.client.half_close.mpr (.inr hmain))
  have hsent := h.server_sent (List.ne_nil_of_mem hmem)
  rw [hsent] at hmem
  rcases List.mem_cons.mp hmem with heq | hin
  · cases heq
  · exact hin

/-- The server is past the open phase. -/
theorem Calm.started (h : Calm setup s) (hr : (system setup).Reachable s)
    (hopens : setup.Opens) (hstuck : Stuck setup s) : s.server.main.started = true := by
  obtain ⟨hrequested, hstart⟩ := h.requested_of_stuck hstuck
  obtain ⟨-, hguarded⟩ := ServerState.inv_and_guarded (server_reachable hr)
  have hplace := h.server.place
  -- what the server resolves is what the client asked for
  have hwanted : ∀ target, s.server.wanted = some target → target = setup.target := by
    intro target hw
    have hhead := hguarded.opened target hw
    obtain ⟨rest, hrest⟩ := h.inv.received_in_order
    rw [h.inv.client.sent_eq, if_neg hstart] at hrest
    cases hreceived : s.server.received with
    | nil =>
      rw [hreceived] at hhead
      cases hhead
    | cons first more =>
      rw [hreceived] at hhead hrest
      obtain rfl := Option.some.inj hhead
      have heq := (List.cons.inj hrest).1
      cases heq
      rfl
  cases hmain : s.server.main with
  | relaying => rfl
  | writing rest => rfl
  | shutting next => rfl
  | returned why => rfl
  | rejected err =>
    rw [hmain] at hplace
    cases hplace
  | pong millis =>
    rw [hmain] at hplace
    cases hplace
  | closing why =>
    rw [hmain] at hplace
    cases hplace
  | idle =>
    obtain ⟨token, htoken⟩ := hopens.let_in
    have hnone := hstuck.server (l := .authenticate) (by simp [ServerLabel.calm, htoken]; rfl)
      hrequested rfl rfl
    simp [ServerState.step, hmain, htoken] at hnone
  | waitOpen =>
    -- the first frame of the client must be there
    have hall := h.all_received hstuck (hstuck.server_recv (.inl hmain))
    rw [h.inv.server.nothing_received (by rw [hmain]; rfl), h.inv.client.sent_eq,
      if_neg hstart] at hall
    cases hall
  -- from here on the environment has an answer that lets the server go on
  | resolving target =>
    obtain ⟨answer, addrs, hres⟩ := hopens.admits
    obtain rfl := hwanted target (by unfold ServerState.wanted; rw [hmain])
    have hnone := hstuck.server (l := .resolve answer)
      (by simp [ServerLabel.calm, hmain, hres]; rfl) rfl rfl rfl
    simp [ServerState.step, hmain] at hnone
  | connecting target rest lastErr =>
    cases rest with
    | nil =>
      rw [hmain] at hplace
      cases hplace
    | cons addr rest =>
      have hnone := hstuck.server (l := .dial (.connected none)) rfl rfl rfl rfl
      simp [ServerState.step, hmain] at hnone
  | writingFirst rest => exact absurd (.inl hmain) (hstuck.not_writing rest)
  | openOk =>
    -- a client that has returned got a half-close, which no task has sent yet
    have hopen : s.client.main ≠ .returned none := by
      intro hreturned
      have hmem := h.half_close_sent hreturned
      have hidle := h.inv.server.not_spawned (by rw [hmain]; rfl) (by simp [hmain, ServerPc.phase])
      rw [(h.inv.server.task.not_spawned hidle).1] at hmem
      cases hmem
    obtain ⟨hsq, hs2c⟩ := h.s2c_live hopen
    have hnone := hstuck.server_send (l := .send (openResultFrame true "")) rfl rfl rfl rfl hsq
      (sq_empty hstuck hs2c)
    simp [ServerState.step, ServerState.outgoing, hmain] at hnone

/-- The server's main loop waits for the client, or has returned. -/
theorem Calm.server_main (h : Calm setup s) (hstuck : Stuck setup s)
    (hstarted : s.server.main.started = true) :
    s.server.main = .relaying ∨ s.server.main = .returned .clientClosed := by
  have hplace := h.server.place
  cases hmain : s.server.main with
  | relaying => exact .inl rfl
  | returned why =>
    rw [hmain] at hplace
    obtain rfl : why = .clientClosed := by simpa [ServerPc.calm] using hplace
    exact .inr rfl
  | shutting next =>
    have hnone := hstuck.server (l := .shutdownDone) rfl rfl rfl rfl
    cases next <;> simp [ServerState.step, hmain] at hnone
  | writing rest => exact absurd (.inr hmain) (hstuck.not_writing rest)
  | _ =>
    rw [hmain] at hstarted
    cases hstarted

/-- The client's main loop waits for the server, or has returned. -/
theorem Calm.client_main (h : Calm setup s) (hstuck : Stuck setup s)
    (hstarted : s.server.main.started = true) :
    s.client.main = .relaying ∨ s.client.main = .returned none := by
  obtain ⟨hrequested, hstart⟩ := h.requested_of_stuck hstuck
  cases hmain : s.client.main with
  | start => exact absurd hmain hstart
  | preparing =>
    have hnone := hstuck.client (l := .tokenOk) rfl (by simp) rfl rfl rfl
    simp [ClientState.step, hmain] at hnone
  | calling =>
    -- a server that relays has answered the call
    have hanswered : s.answered = true := by
      unfold answered
      cases hserver : s.server.main <;> rw [hserver] at hstarted <;>
        first | rfl | cases hstarted
    have hnone := hstuck.client (l := .callOk) rfl (by simp) hanswered rfl rfl
    simp [ClientState.step, hmain] at hnone
  | awaitOpen =>
    have hall := h.all_replied hstuck (.inl hmain)
    rw [(h.inv.client.not_spawned (by rw [hmain]; rfl)).2, h.server.sent_eq,
      if_pos hstarted] at hall
    cases hall
  | relaying => exact .inl rfl
  | writing rest =>
    cases rest with
    | nil =>
      have hnone := hstuck.client (l := .localWriteDone) rfl (by simp) rfl rfl rfl
      simp [ClientState.step, hmain] at hnone
    | cons b rest =>
      have hnone := hstuck.client (l := .localWrite 1) rfl (by simp) rfl rfl rfl
      simp [ClientState.step, hmain] at hnone
  | shutting =>
    have hnone := hstuck.client (l := .localShutdownOk) rfl (by simp) rfl rfl rfl
    simp [ClientState.step, hmain] at hnone
  | returned err =>
    cases err with
    | none => exact .inr rfl
    | some err => exact absurd hmain (h.client.no_error err)

/-- The server's reading task has sent its half-close. -/
theorem Calm.server_task (h : Calm setup s) (hstuck : Stuck setup s)
    (hstarted : s.server.main.started = true) : serverHalfClose ∈ s.server.task.sent := by
  by_cases hreturned : s.client.main = .returned none
  · exact h.half_close_sent hreturned
  · obtain ⟨hsq, hs2c⟩ := h.s2c_live hreturned
    cases hpc : s.server.task.pc with
    | idle => exact absurd hpc (h.server.spawned hstarted)
    | reading =>
      obtain ⟨l, t, hcalm, -, hframes, ht⟩ := ReadTask.exists_read serverKit hpc
      -- a calm read needs nothing of the queue
      have hready : s.serverReady (.task l) = true := by
        cases l <;> first | rfl | cases hcalm
      have hnone := hstuck.server (l := .task l) hcalm hready hframes rfl
      simp [ServerState.step, ht] at hnone
    | sending frame last =>
      have hnone := hstuck.server_send (l := .task (.send frame last)) rfl rfl rfl rfl hsq
        (sq_empty hstuck hs2c)
      simp [ServerState.step, ReadTask.step, hpc] at hnone
    | finished =>
      rcases h.server.task.finished hpc with hmem | habort
      · exact hmem
      · -- an abort comes at the end of the main loop only
        have hover : s.server.main.phase = .over := by
          by_contra hnot
          rw [h.server.not_aborted hnot] at habort
          cases habort
        have hend : s.server.main.ending = true := by
          cases hmain : s.server.main <;> rw [hmain] at hover <;> first | rfl | cases hover
        exact absurd (h.client_returned hend) hreturned

/-- The client's reading task is through. -/
theorem Calm.client_task (h : Calm setup s) (hstuck : Stuck setup s)
    (hmain : s.client.main = .returned none) : s.client.task.pc = .finished := by
  cases hpc : s.client.task.pc with
  | finished => rfl
  | idle => exact absurd hpc (h.client.spawned (by rw [hmain]; rfl))
  | reading =>
    obtain ⟨l, t, hcalm, hcancel, hframes, ht⟩ := ReadTask.exists_read clientKit hpc
    have hready : s.clientReady (.task l) = true := by
      cases l <;> first | rfl | cases hcalm
    have hnone := hstuck.client (l := .task l) hcalm (by simpa using hcancel) hready hframes rfl
    simp [ClientState.step, ht] at hnone
  | sending frame last =>
    have hnone := hstuck.client_send (l := .task (.send frame last)) rfl (by simp) rfl rfl rfl
      h.cq_live (h.cq_empty hstuck)
    simp [ClientState.step, ReadTask.step, hpc] at hnone

/-- **A stuck calm run is complete**: both relays have returned, and every
    frame that was sent has arrived. -/
theorem Calm.complete (h : Calm setup s) (hr : (system setup).Reachable s)
    (hopens : setup.Opens) (hstuck : Stuck setup s) :
    (s.client.main = .returned none ∧ s.client.task.pc = .finished ∧
      s.server.main = .returned .clientClosed) ∧
      s.server.received = s.client.sent ∧ serverHalfClose ∈ s.client.received := by
  have hstarted := h.started hr hopens hstuck
  have hclient : s.client.main = .returned none := by
    rcases h.client_main hstuck hstarted with hmain | hmain
    · -- the half-close the server sent would have ended the loop
      have hmem := h.server_task hstuck hstarted
      have hall := h.all_replied hstuck (.inr hmain)
      have hin : serverHalfClose ∈ s.client.received := by
        rw [hall, h.server.sent_eq, if_pos hstarted]
        exact List.mem_cons_of_mem _ hmem
      rcases h.client.half_close.mp hin with hpc | hpc <;> rw [hmain] at hpc <;> cases hpc
    · exact hmain
  have htask := h.client_task hstuck hclient
  -- both senders are gone and the queue is empty, so the way up ends
  have hended : s.c2s.status = .ended := by
    apply h.c2s_over
    intro hlive
    have hsilent : s.clientSilent = true := clientSilent_iff.mpr ⟨⟨_, hclient⟩, .inr htask⟩
    obtain ⟨c2s, hfinish⟩ := Link.finish_isSome hlive
    have hnone := hstuck .endUp rfl (by simp)
    rw [step_iff.mpr (.endUp (h.requested_of_stuck hstuck).1 hsilent (h.cq_empty hstuck)
      hfinish)] at hnone
    cases hnone
  have hserver : s.server.main = .returned .clientClosed := by
    rcases h.server_main hstuck hstarted with hmain | hmain
    · have hempty := hstuck.server_recv (.inr hmain)
      have hreceive : receiveIf s.c2s (some none) = some s.c2s := by
        simp [receiveIf, receive, hempty, hended]
      have hstep : s.server.step setup.server setup.metadata (.recv none)
          = some ((s.server.note none).onNext setup.server.text none) := by
        simp [ServerState.step, hmain]
      exact absurd (hstuck (.server (.recv none)) rfl (by simp))
        (server_enabled rfl hstep rfl hreceive)
    · exact hmain
  refine ⟨⟨hclient, htask, hserver⟩, ?_, h.client.half_close.mpr (.inr hclient)⟩
  exact h.all_received hstuck (h.server_end (by rw [hserver]; rfl)).2

end calm

end TunnelState

end EchProxy
