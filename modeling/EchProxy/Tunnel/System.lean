import EchProxy.Framework.Fifo
import EchProxy.Tunnel.Client
import EchProxy.Tunnel.ServerInv

/-! # A Whole Tunnel

    The client relay and the server side, joined by their outbound queues and
    the two directions of one gRPC stream.  The four activities (two main
    loops, two reading tasks) and the network interleave freely; a direction
    may be reset and a queue dropped at any point.

        local ─ local_to_grpc ─ cq ─ c2s ─ handle_tunnel ─ target
        local ─ relay_grpc ─── s2c ─ sq ─ target_to_grpc ─ target
-/

namespace EchProxy

open Server Fifo

/-! ## State and labels -/

/-- What is fixed for a tunnel: the two ends and their scripts. -/
structure TunnelSetup where
  server : ServerConfig
  /-- The metadata the client's token makes. -/
  metadata : MetadataMap
  target : Open
  /-- What the local socket delivers up to its end of file. -/
  localInput : Bytes
  /-- What the target socket delivers up to its end of file. -/
  targetInput : Bytes

/-- A tunnel. -/
structure TunnelState where
  client : ClientState
  server : ServerState
  /-- The request was handed to gRPC. -/
  requested : Bool
  /-- The client's outbound queue. -/
  cq : Link ClientFrame
  /-- Client frames under way. -/
  c2s : Link ClientFrame
  /-- The server's outbound queue. -/
  sq : Link ServerFrame
  /-- Server frames under way. -/
  s2c : Link ServerFrame

/-- What can happen to a tunnel. -/
inductive TunnelLabel where
  | client (l : ClientLabel)
  | server (l : ServerLabel)
  /-- gRPC takes the next frame out of a queue. -/
  | pumpUp
  | pumpDown
  /-- A queue is empty and all its senders are gone: the direction ends. -/
  | endUp
  | endDown
  /-- A direction is reset: at most `k` frames under way still arrive. -/
  | cutUp (k : Nat)
  | cutDown (k : Nat)
  /-- The receiver of a queue is dropped. -/
  | dropUp
  | dropDown

/-- Taking an item from a stream: a frame if there is one, the end once the
    stream is over, a status once it failed. -/
def receive {F : Type} [DecidableEq F] (q : Link F) : StreamItem F → Option (Link F)
  | some (.ok frame) =>
    q.pop.bind fun (frame', q') => if frame' = frame then some q' else none
  | some (.error _) => if q.queue = [] ∧ q.status = .failed then some q else none
  | none => if q.queue = [] ∧ q.status ≠ .live then some q else none

/-- Taking an item if the step takes one. -/
def receiveIf {F : Type} [DecidableEq F] (q : Link F) : Option (StreamItem F) → Option (Link F)
  | some item => receive q item
  | none => some q

namespace TunnelState

def fresh (setup : TunnelSetup) : TunnelState where
  client := .fresh setup.localInput
  server := .fresh setup.targetInput
  requested := false
  cq := .fresh
  c2s := .fresh
  sq := .fresh
  s2c := .fresh

/-- `tunnel` has answered the call with a stream. -/
def answered (s : TunnelState) : Bool :=
  match s.server.main with
  | .idle | .rejected _ => false
  | _ => true

/-- No sender of the client's queue is left. -/
def clientSilent (s : TunnelState) : Bool :=
  match s.client.main, s.client.task.pc with
  | .returned _, .idle | .returned _, .finished => true
  | _, _ => false

/-- No sender of the server's queue is left. -/
def serverSilent (s : TunnelState) : Bool :=
  match s.server.main, s.server.task.pc with
  | .returned _, .idle | .returned _, .finished => true
  | _, _ => false

/-- What the other side and the queue must have done for a client step. -/
def clientReady (s : TunnelState) : ClientLabel → Bool
  | .callOk => s.answered
  | .task (.sendFail _ _) => s.cq.status = .failed
  | _ => true

/-- What the other side and the queue must have done for a server step. -/
def serverReady (s : TunnelState) : ServerLabel → Bool
  | .authenticate => s.requested
  | .sendFail | .task (.sendFail _ _) => s.sq.status = .failed
  | _ => true

/-- One step of a tunnel. -/
def step (setup : TunnelSetup) (s : TunnelState) : TunnelLabel → Option TunnelState
  | .client l =>
    if s.clientReady l then
      (s.client.step setup.target l).bind fun client =>
        (s.cq.offer outboundQueue (l.frames setup.target)).bind fun cq =>
          (receiveIf s.s2c l.item).map fun s2c =>
            { s with
              client := client
              -- the call to gRPC is what brings the request to the server
              requested := s.requested || client.main = .calling
              cq := cq
              s2c := s2c }
    else none
  | .server l =>
    if s.serverReady l then
      (s.server.step setup.server setup.metadata l).bind fun server =>
        (s.sq.offer outboundQueue l.frames).bind fun sq =>
          (receiveIf s.c2s l.item).map fun c2s =>
            { s with server := server, sq := sq, c2s := c2s }
    else none
  -- gRPC polls the queue of a request that was sent
  | .pumpUp =>
    if s.requested then
      s.cq.pop.bind fun (frame, cq) =>
        (s.c2s.push frame).map fun c2s => { s with cq := cq, c2s := c2s }
    else none
  | .pumpDown =>
    s.sq.pop.bind fun (frame, sq) =>
      (s.s2c.push frame).map fun s2c => { s with sq := sq, s2c := s2c }
  -- a queue ends when all its senders are dropped and it is drained
  | .endUp =>
    if s.requested ∧ s.clientSilent ∧ s.cq.queue = [] then
      s.c2s.finish.map fun c2s => { s with c2s := c2s }
    else none
  | .endDown =>
    if s.serverSilent ∧ s.sq.queue = [] then
      s.s2c.finish.map fun s2c => { s with s2c := s2c }
    else none
  | .cutUp k => if s.c2s.status ≠ .failed then some { s with c2s := s.c2s.cut k } else none
  | .cutDown k => if s.s2c.status ≠ .failed then some { s with s2c := s.s2c.cut k } else none
  | .dropUp => if s.cq.status ≠ .failed then some { s with cq := s.cq.cut 0 } else none
  | .dropDown => if s.sq.status ≠ .failed then some { s with sq := s.sq.cut 0 } else none

/-- The tunnel. -/
def system (setup : TunnelSetup) : Lts.System TunnelState TunnelLabel where
  init := fun s => s = fresh setup
  step := step setup

/-! ## How the parts are wired -/

/-- What leaves one part is what enters the next. -/
structure Wired (s : TunnelState) : Prop where
  cq_sent : s.cq.sent = s.client.sent
  c2s_sent : s.c2s.sent = s.cq.taken
  server_received : s.server.received = s.c2s.taken
  sq_sent : s.sq.sent = s.server.sent
  s2c_sent : s.s2c.sent = s.sq.taken
  client_received : s.client.received = s.s2c.taken

/-- The invariant of a tunnel: each part keeps its own, and they are wired. -/
structure Inv (setup : TunnelSetup) (s : TunnelState) : Prop where
  client : s.client.Inv setup.target setup.localInput
  server : s.server.Inv setup.targetInput
  wired : Wired s

section invariant
variable {setup : TunnelSetup} {s s' : TunnelState}

theorem receive_spec {F : Type} [DecidableEq F] {q q' : Link F} {item : StreamItem F}
    (h : receive q item = some q') :
    q'.sent = q.sent ∧ q'.taken = q.taken ++ item.frames ∧
      q.queue = item.frames ++ q'.queue ∧ q'.status = q.status := by
  rcases item with _ | (status | frame)
  · simp only [receive, Option.ite_none_right_eq_some, Option.some.injEq] at h
    obtain ⟨-, rfl⟩ := h
    simp [StreamItem.frames]
  · simp only [receive, Option.ite_none_right_eq_some, Option.some.injEq] at h
    obtain ⟨-, rfl⟩ := h
    simp [StreamItem.frames]
  · simp only [receive, Option.bind_eq_some_iff] at h
    obtain ⟨⟨frame', q₁⟩, hpop, h⟩ := h
    simp only [Option.ite_none_right_eq_some, Option.some.injEq] at h
    obtain ⟨rfl, rfl⟩ := h
    obtain ⟨hqueue, hstatus, hsent, htaken⟩ := Link.pop_spec hpop
    exact ⟨hsent, htaken, hqueue, hstatus⟩

theorem receiveIf_spec {F : Type} [DecidableEq F] {q q' : Link F}
    {item : Option (StreamItem F)} (h : receiveIf q item = some q') :
    q'.sent = q.sent ∧ q'.taken = q.taken ++ item.elim [] StreamItem.frames ∧
      q.queue = item.elim [] StreamItem.frames ++ q'.queue ∧ q'.status = q.status := by
  cases item with
  | some item => exact receive_spec h
  | none =>
    obtain rfl := Option.some.inj h
    simp

/-- What a step of a tunnel needs, and what it leaves: one rule a branch of `step`. -/
inductive Step (setup : TunnelSetup) (s : TunnelState) : TunnelLabel → TunnelState → Prop where
  | client {l : ClientLabel} {client : ClientState} {cq : Link ClientFrame}
      {s2c : Link ServerFrame} (hready : s.clientReady l = true)
      (hclient : s.client.step setup.target l = some client)
      (hcq : s.cq.offer outboundQueue (l.frames setup.target) = some cq)
      (hs2c : receiveIf s.s2c l.item = some s2c) :
      Step setup s (.client l)
        { s with
          client := client
          requested := s.requested || client.main = .calling
          cq := cq
          s2c := s2c }
  | server {l : ServerLabel} {server : ServerState} {sq : Link ServerFrame}
      {c2s : Link ClientFrame} (hready : s.serverReady l = true)
      (hserver : s.server.step setup.server setup.metadata l = some server)
      (hsq : s.sq.offer outboundQueue l.frames = some sq)
      (hc2s : receiveIf s.c2s l.item = some c2s) :
      Step setup s (.server l) { s with server := server, sq := sq, c2s := c2s }
  | pumpUp {frame : ClientFrame} {cq c2s : Link ClientFrame} (hrequested : s.requested = true)
      (hpop : s.cq.pop = some (frame, cq)) (hpush : s.c2s.push frame = some c2s) :
      Step setup s .pumpUp { s with cq := cq, c2s := c2s }
  | pumpDown {frame : ServerFrame} {sq s2c : Link ServerFrame}
      (hpop : s.sq.pop = some (frame, sq)) (hpush : s.s2c.push frame = some s2c) :
      Step setup s .pumpDown { s with sq := sq, s2c := s2c }
  | endUp {c2s : Link ClientFrame} (hrequested : s.requested = true)
      (hsilent : s.clientSilent = true) (hempty : s.cq.queue = [])
      (hfinish : s.c2s.finish = some c2s) : Step setup s .endUp { s with c2s := c2s }
  | endDown {s2c : Link ServerFrame} (hsilent : s.serverSilent = true) (hempty : s.sq.queue = [])
      (hfinish : s.s2c.finish = some s2c) : Step setup s .endDown { s with s2c := s2c }
  | cutUp {k : Nat} (hup : s.c2s.status ≠ .failed) :
      Step setup s (.cutUp k) { s with c2s := s.c2s.cut k }
  | cutDown {k : Nat} (hup : s.s2c.status ≠ .failed) :
      Step setup s (.cutDown k) { s with s2c := s.s2c.cut k }
  | dropUp (hup : s.cq.status ≠ .failed) : Step setup s .dropUp { s with cq := s.cq.cut 0 }
  | dropDown (hup : s.sq.status ≠ .failed) : Step setup s .dropDown { s with sq := s.sq.cut 0 }

/-- **`step` follows the rules, and nothing else.** -/
theorem step_iff {l : TunnelLabel} : s.step setup l = some s' ↔ Step setup s l s' := by
  constructor
  · intro hs
    cases l with
    | client l =>
      simp only [step, Option.ite_none_right_eq_some, Option.bind_eq_some_iff,
        Option.map_eq_some_iff] at hs
      obtain ⟨hready, client, hclient, cq, hcq, s2c, hs2c, rfl⟩ := hs
      exact .client hready hclient hcq hs2c
    | server l =>
      simp only [step, Option.ite_none_right_eq_some, Option.bind_eq_some_iff,
        Option.map_eq_some_iff] at hs
      obtain ⟨hready, server, hserver, sq, hsq, c2s, hc2s, rfl⟩ := hs
      exact .server hready hserver hsq hc2s
    | pumpUp =>
      simp only [step, Option.ite_none_right_eq_some, Option.bind_eq_some_iff,
        Option.map_eq_some_iff] at hs
      obtain ⟨hrequested, ⟨frame, cq⟩, hpop, c2s, hpush, rfl⟩ := hs
      exact .pumpUp hrequested hpop hpush
    | pumpDown =>
      simp only [step, Option.bind_eq_some_iff, Option.map_eq_some_iff] at hs
      obtain ⟨⟨frame, sq⟩, hpop, s2c, hpush, rfl⟩ := hs
      exact .pumpDown hpop hpush
    | endUp =>
      simp only [step, Option.ite_none_right_eq_some, Option.map_eq_some_iff] at hs
      obtain ⟨⟨hrequested, hsilent, hempty⟩, c2s, hfinish, rfl⟩ := hs
      exact .endUp hrequested hsilent hempty hfinish
    | endDown =>
      simp only [step, Option.ite_none_right_eq_some, Option.map_eq_some_iff] at hs
      obtain ⟨⟨hsilent, hempty⟩, s2c, hfinish, rfl⟩ := hs
      exact .endDown hsilent hempty hfinish
    -- the failures have a guard and nothing else
    | cutUp k | cutDown k | dropUp | dropDown =>
      simp only [step, Option.ite_none_right_eq_some, Option.some.injEq] at hs
      obtain ⟨hup, rfl⟩ := hs
      constructor
      exact hup
  · intro hs
    cases hs with
    | client hready hclient hcq hs2c => simp [step, hready, hclient, hcq, hs2c]
    | server hready hserver hsq hc2s => simp [step, hready, hserver, hsq, hc2s]
    | pumpUp hrequested hpop hpush => simp [step, hrequested, hpop, hpush]
    | pumpDown hpop hpush => simp [step, hpop, hpush]
    | endUp hrequested hsilent hempty hfinish => simp [step, hrequested, hsilent, hempty, hfinish]
    | endDown hsilent hempty hfinish => simp [step, hsilent, hempty, hfinish]
    | cutUp hup | cutDown hup | dropUp hup | dropDown hup => exact if_pos hup

/-- What a client step does to a tunnel. -/
theorem client_step {l : ClientLabel} (hs : s.step setup (.client l) = some s') :
    s.clientReady l = true ∧ s.client.step setup.target l = some s'.client ∧
      s.cq.offer outboundQueue (l.frames setup.target) = some s'.cq ∧
      receiveIf s.s2c l.item = some s'.s2c ∧
      s' = { s with
        client := s'.client
        requested := s.requested || s'.client.main = .calling
        cq := s'.cq
        s2c := s'.s2c } := by
  cases step_iff.mp hs with
  | client hready hclient hcq hs2c => exact ⟨hready, hclient, hcq, hs2c, rfl⟩

/-- What a server step does to a tunnel. -/
theorem server_step {l : ServerLabel} (hs : s.step setup (.server l) = some s') :
    s.serverReady l = true ∧
      s.server.step setup.server setup.metadata l = some s'.server ∧
      s.sq.offer outboundQueue l.frames = some s'.sq ∧
      receiveIf s.c2s l.item = some s'.c2s ∧
      s' = { s with server := s'.server, sq := s'.sq, c2s := s'.c2s } := by
  cases step_iff.mp hs with
  | server hready hserver hsq hc2s => exact ⟨hready, hserver, hsq, hc2s, rfl⟩

theorem inv_fresh (setup : TunnelSetup) : Inv setup (fresh setup) where
  client := ClientState.inv_fresh _ _
  server := ServerState.inv_fresh _
  wired := ⟨rfl, rfl, rfl, rfl, rfl, rfl⟩

/-- **Every step of a tunnel keeps the invariant**, the faults included. -/
theorem Inv.step {l : TunnelLabel} (h : Inv setup s) (hs : s.step setup l = some s') :
    Inv setup s' := by
  have hw := h.wired
  cases step_iff.mp hs with
  | @client l client cq s2c hready hclient hcq hs2c =>
    have heffect := ClientState.step_effect hclient
    obtain ⟨-, hcqsent, hcqtaken, -⟩ := Link.offer_spec hcq
    obtain ⟨hs2csent, hs2ctaken, -⟩ := receiveIf_spec hs2c
    exact ⟨h.client.step hclient, h.server,
      -- what the client sends it offers to its queue, in the same step
      { cq_sent := by rw [hcqsent, heffect.sent, hw.cq_sent]
        c2s_sent := by rw [hcqtaken]; exact hw.c2s_sent
        server_received := hw.server_received
        sq_sent := hw.sq_sent
        s2c_sent := by rw [hs2csent]; exact hw.s2c_sent
        client_received := by rw [hs2ctaken, heffect.received, hw.client_received] }⟩
  | @server l server sq c2s hready hserver hsq hc2s =>
    have heffect := ServerState.step_effect hserver
    obtain ⟨-, hsqsent, hsqtaken, -⟩ := Link.offer_spec hsq
    obtain ⟨hc2ssent, hc2staken, -⟩ := receiveIf_spec hc2s
    exact ⟨h.client, h.server.step hserver,
      { cq_sent := hw.cq_sent
        c2s_sent := by rw [hc2ssent]; exact hw.c2s_sent
        server_received := by rw [hc2staken, heffect.received, hw.server_received]
        sq_sent := by rw [hsqsent, heffect.sent, hw.sq_sent]
        s2c_sent := by rw [hsqtaken]; exact hw.s2c_sent
        client_received := hw.client_received }⟩
  | pumpUp _ hpop hpush =>
    obtain ⟨-, -, hcqsent, hcqtaken⟩ := Link.pop_spec hpop
    obtain ⟨-, -, hc2ssent, hc2staken, -⟩ := Link.push_spec hpush
    exact ⟨h.client, h.server,
      { cq_sent := by rw [hcqsent]; exact hw.cq_sent
        -- a frame leaves the queue and enters the link at once
        c2s_sent := by rw [hc2ssent, hcqtaken, hw.c2s_sent]
        server_received := by rw [hc2staken]; exact hw.server_received
        sq_sent := hw.sq_sent
        s2c_sent := hw.s2c_sent
        client_received := hw.client_received }⟩
  | pumpDown hpop hpush =>
    obtain ⟨-, -, hsqsent, hsqtaken⟩ := Link.pop_spec hpop
    obtain ⟨-, -, hs2csent, hs2ctaken, -⟩ := Link.push_spec hpush
    exact ⟨h.client, h.server,
      { cq_sent := hw.cq_sent
        c2s_sent := hw.c2s_sent
        server_received := hw.server_received
        sq_sent := by rw [hsqsent]; exact hw.sq_sent
        s2c_sent := by rw [hs2csent, hsqtaken, hw.s2c_sent]
        client_received := by rw [hs2ctaken]; exact hw.client_received }⟩
  | endUp _ _ _ hfinish =>
    obtain ⟨-, -, hsent, htaken, -⟩ := Link.finish_spec hfinish
    exact ⟨h.client, h.server,
      ⟨hw.cq_sent, hsent ▸ hw.c2s_sent, htaken ▸ hw.server_received, hw.sq_sent, hw.s2c_sent,
        hw.client_received⟩⟩
  | endDown _ _ hfinish =>
    obtain ⟨-, -, hsent, htaken, -⟩ := Link.finish_spec hfinish
    exact ⟨h.client, h.server,
      ⟨hw.cq_sent, hw.c2s_sent, hw.server_received, hw.sq_sent, hsent ▸ hw.s2c_sent,
        htaken ▸ hw.client_received⟩⟩
  | cutUp _ | cutDown _ | dropUp _ | dropDown _ =>
    -- a cut shortens what is under way and touches no history
    exact ⟨h.client, h.server,
      ⟨hw.cq_sent, hw.c2s_sent, hw.server_received, hw.sq_sent, hw.s2c_sent,
        hw.client_received⟩⟩

/-- The invariant holds in every reachable state. -/
theorem inv_of_reachable (hr : (system setup).Reachable s) : Inv setup s := by
  refine Lts.System.invariant (system setup) (Inv setup) ?_ ?_ s hr
  · rintro s rfl
    exact inv_fresh setup
  · intro s l s' h hs
    exact h.step hs

/-- What a step of a tunnel does to its client. -/
theorem step_client {l : TunnelLabel} (hs : s.step setup l = some s') :
    (∃ cl, l = .client cl ∧ s.client.step setup.target cl = some s'.client) ∨
      s'.client = s.client := by
  cases step_iff.mp hs with
  | @client cl _ _ _ _ hclient _ _ => exact .inl ⟨cl, rfl, hclient⟩
  | _ => exact .inr rfl

/-- What a step of a tunnel does to its server. -/
theorem step_server {l : TunnelLabel} (hs : s.step setup l = some s') :
    (∃ sl, l = .server sl ∧
      s.server.step setup.server setup.metadata sl = some s'.server) ∨
      s'.server = s.server := by
  cases step_iff.mp hs with
  | @server sl _ _ _ _ hserver _ _ => exact .inl ⟨sl, rfl, hserver⟩
  | _ => exact .inr rfl

/-- The server side of a tunnel runs as it does on its own. -/
theorem server_reachable (hr : (system setup).Reachable s) :
    (ServerState.system setup.server setup.metadata setup.targetInput).Reachable s.server := by
  induction hr with
  | init h =>
    rw [show _ = fresh setup from h]
    exact .init rfl
  | step _ hs ih =>
    rcases step_server hs with ⟨sl, -, hserver⟩ | heq
    · exact .step ih hserver
    · rw [heq]
      exact ih

/-! ## Across the wires -/

/-- What the server took is a prefix of what the client sent. -/
theorem Inv.received_in_order (h : Inv setup s) : s.server.received <+: s.client.sent := by
  rw [h.wired.server_received, ← h.wired.cq_sent]
  exact series_prefix h.wired.c2s_sent

/-- What the client took is a prefix of what the server sent. -/
theorem Inv.replied_in_order (h : Inv setup s) : s.client.received <+: s.server.sent := by
  rw [h.wired.client_received, ← h.wired.sq_sent]
  exact series_prefix h.wired.s2c_sent

end invariant

end TunnelState

end EchProxy
