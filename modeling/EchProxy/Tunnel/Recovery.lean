import EchProxy.Tunnel.Conformance
import EchProxy.Tunnel.Progress
import EchProxy.Tunnel.ServerRelease
import EchProxy.Tunnel.Termination

/-! # No Tunnel Hangs

    Whatever has gone wrong in a run, the tunnel comes to its end by itself:
    as long as one of its four activities goes on, one of them or gRPC has a
    step to take that needs no further fault and no timeout.

    Two activities can only wait for each other at the two places where a
    main loop waits for a frame.  The argument excludes that: when nothing is
    under way, each side has got all that the other has said, and what it has
    got lets it go on.
-/

namespace EchProxy

open Server Fifo

/-! ## Steps that come by themselves -/

/-- The sockets deliver, the queue takes the frame or is gone. -/
def TaskLabel.due {F : Type} : TaskLabel F → Bool
  | .readErr _ => false
  | _ => true

def ClientLabel.due : ClientLabel → Bool
  | .badToken | .callErr _ | .localWriteErr _ | .localShutdownErr _ => false
  | .task l => l.due
  | _ => true

/-- Also where the resolver or a connect fails: they come back, which is all that is
    needed of them. -/
def ServerLabel.due : ServerLabel → Bool
  | .idleTimeout | .targetWriteErr _ => false
  | .task l => l.due
  | _ => true

/-- No new fault is behind the step.  What gRPC does about an earlier one is due: a
    call the server has refused fails, a queue that was dropped resets its
    direction, and a direction that was reset drops its queue. -/
def TunnelLabel.due (s : TunnelState) : TunnelLabel → Bool
  | .client (.callErr _) =>
    match s.server.main with
    | .rejected _ => true
    | _ => false
  | .client l => l.due
  | .server l => l.due
  | .cutUp _ => s.cq.status = .failed
  | .cutDown _ => s.sq.status = .failed
  | .dropUp => s.requested && s.c2s.status = .failed
  | .dropDown => s.s2c.status = .failed
  | .pumpUp | .pumpDown | .endUp | .endDown => true

/-- Before the request is handed to gRPC, the receiver of the client's queue is with
    `relay_grpc` itself, and is not dropped. -/
def TunnelLabel.lawful (s : TunnelState) : TunnelLabel → Bool
  | .dropUp => s.requested
  | _ => true

namespace TunnelState

/-- The tunnel, with faults only where they can happen. -/
abbrev lawfulSystem (setup : TunnelSetup) : Lts.System TunnelState TunnelLabel :=
  (system setup).restrict fun s l => l.lawful s = true

/-- Nothing of a tunnel is left at either end: both relays have returned and their
    reading tasks are through, or the request was never sent or never let in. -/
structure Over (s : TunnelState) : Prop where
  client : ∃ err, s.client.main = .returned err
  client_task : s.client.task.pc = .idle ∨ s.client.task.pc = .finished
  server : (∃ why, s.server.main = .returned why) ∨ (∃ err, s.server.main = .rejected err) ∨
    s.server.main = .idle ∧ s.requested = false
  server_task : s.server.task.pc = .idle ∨ s.server.task.pc = .finished

end TunnelState

/-! ## The last frame of a stream -/

/-- A frame that ends the server's stream for the client. -/
def ServerFrame.isLast (frame : ServerFrame) : Bool :=
  match frame.payload with
  | some .halfClose | some (.reset _) => true
  | _ => false

/-- The client has handed its request to gRPC. -/
def ClientPc.asked : ClientPc → Bool
  | .start | .preparing | .returned _ => false
  | _ => true

/-- The client has got the stream of its call. -/
def ClientPc.met : ClientPc → Bool
  | .awaitOpen | .relaying | .writing _ | .shutting => true
  | _ => false

/-- The client takes further frames. -/
def ClientPc.hearing : ClientPc → Bool
  | .relaying | .writing _ => true
  | _ => false

/-- The server has got the request and let it in. -/
def ServerPc.admitted : ServerPc → Bool
  | .idle | .rejected _ => false
  | _ => true

/-! ## The client -/

namespace ClientState

section course
variable {target : Open} {s s' : ClientState} {l : ClientLabel}

/-- Only the call to gRPC sends the request. -/
theorem step_asked (hs : s.step target l = some s') (hasked : s'.main.asked = true) :
    s.main.asked = true ∨ s'.main = .calling := by
  cases step_iff.mp hs with
  | sendOpen hmain => cases hasked
  | tokenOk hmain => exact .inr rfl
  | task _ => exact .inl hasked
  | badToken hmain => cases hasked
  | callOk hmain | callErr hmain | recvFirst hmain | recvNext hmain | localWrite hmain
  | localWriteDone hmain | localWriteErr hmain | localShutdownOk hmain | localShutdownErr hmain =>
    exact .inl (by rw [hmain]; rfl)

/-- The first item lets the client into its loop, or makes it return. -/
theorem onFirst_main (s : ClientState) (item : StreamItem ServerFrame) :
    (s.onFirst item).main = .relaying ∨ ∃ err, (s.onFirst item).main = .returned err := by
  unfold onFirst
  split
  · exact .inr ⟨_, rfl⟩
  · exact .inr ⟨_, rfl⟩
  · split
    · split
      · exact .inl rfl
      · exact .inr ⟨_, rfl⟩
    · exact .inr ⟨_, rfl⟩
    · exact .inr ⟨_, rfl⟩

/-- A later item leaves it there, or makes it return. -/
theorem onNext_main (hmain : s.main = .relaying) (item : StreamItem ServerFrame) :
    (s.onNext item).main.looping = true ∨ ∃ err, (s.onNext item).main = .returned err := by
  unfold onNext
  split
  · exact .inr ⟨_, rfl⟩
  · exact .inr ⟨_, rfl⟩
  · split
    · exact .inl rfl
    · exact .inl rfl
    · exact .inr ⟨_, rfl⟩
    · exact .inl (by rw [hmain]; rfl)
    · exact .inr ⟨_, rfl⟩
    · exact .inr ⟨_, rfl⟩

/-- A client that has not called yet had not before. -/
theorem step_unasked (hs : s.step target l = some s')
    (hpc : s'.main = .start ∨ s'.main = .preparing) :
    s.main = .start ∨ s.main = .preparing := by
  cases step_iff.mp hs with
  | sendOpen hmain => exact .inl hmain
  | task _ => exact hpc
  | @recvFirst item hmain =>
    rcases onFirst_main (s.note item) item with heq | ⟨err, heq⟩ <;> simp [heq] at hpc
  | @recvNext item hmain =>
    rcases onNext_main (s := s.note item) hmain item with hloop | ⟨err, heq⟩
    · rcases hpc with hpc | hpc <;> rw [hpc] at hloop <;> cases hloop
    · simp [heq] at hpc
  | _ => rcases hpc with hpc | hpc <;> cases hpc

/-- Only the answer to the call brings the stream. -/
theorem step_met (hs : s.step target l = some s') (hmet : s'.main.met = true) :
    s.main.met = true ∨ l = .callOk := by
  cases step_iff.mp hs with
  | sendOpen hmain => cases hmet
  | tokenOk hmain => cases hmet
  | badToken hmain => cases hmet
  | callErr hmain => cases hmet
  | callOk hmain => exact .inr rfl
  | task _ => exact .inl hmet
  | recvFirst hmain | recvNext hmain | localWrite hmain | localWriteDone hmain
  | localWriteErr hmain | localShutdownOk hmain | localShutdownErr hmain =>
    exact .inl (by rw [hmain]; rfl)

/-- A client that takes further frames has got no last one. -/
def Undecided (s : ClientState) : Prop :=
  s.main.hearing = true → ∀ frame ∈ s.received, frame.isLast = false

theorem Undecided.step {localInput : Bytes} (h : Undecided s) (hinv : Inv target localInput s)
    (hs : s.step target l = some s') : Undecided s' := by
  intro hhearing
  cases step_iff.mp hs with
  | @recvFirst item hmain =>
    -- nothing was received before, so the frame at hand is all there is
    have hnil := (hinv.not_spawned (by rw [hmain]; rfl)).2
    rcases item with _ | (status | ⟨payload⟩)
    · cases hhearing
    · cases hhearing
    · rcases payload with _ | (result | bytes | _ | reason | millis)
      case some.openResult =>
        have hreceived : ((s.note (some (.ok ⟨some (.openResult result)⟩))).onFirst
            (some (.ok ⟨some (.openResult result)⟩))).received
            = s.received ++ [⟨some (.openResult result)⟩] :=
          (step_effect hs).received
        rw [hreceived, hnil]
        intro frame hmem
        rw [List.mem_singleton.mp hmem]
        rfl
      all_goals cases hhearing
  | @recvNext item hmain =>
    have hold := h (by rw [hmain]; rfl)
    rcases item with _ | (status | ⟨payload⟩)
    · cases hhearing
    · cases hhearing
    · have hreceived := (step_effect hs).received
      rcases payload with _ | (result | bytes | _ | reason | millis)
      case some.data | some.pong =>
        rw [hreceived]
        refine List.forall_mem_append.mpr ⟨hold, fun frame hmem => ?_⟩
        rw [List.mem_singleton.mp hmem]
        rfl
      all_goals cases hhearing
  | localWrite hmain | localWriteDone hmain => exact h (by rw [hmain]; rfl)
  | task _ => exact h hhearing
  | _ => cases hhearing

end course

end ClientState

/-! ## The server -/

namespace ServerState

/-- Why the reading task has ended: it has sent its last frame, was told to stop, or
    found the queue gone. -/
structure Course (gone : Prop) (s : ServerState) : Prop where
  ended : s.task.pc = .finished → s.task.abortRequested = true ∨ gone ∨
    ∃ frame ∈ s.task.sent, frame.isLast = true
  spoken : ∀ frame ∈ s.task.sent, frame ∈ s.sent
  /-- On the way out there is a frame to send. -/
  closing : ∀ why, s.main = .closing why → ∀ text, (why.frame text).isSome = true

section course
variable {config : ServerConfig} {metadata : MetadataMap} {targetInput : Bytes}
  {s s' : ServerState} {l : ServerLabel} {gone : Prop}

theorem Course.mono {gone' : Prop} (h : Course gone s) (himp : gone → gone') : Course gone' s where
  ended := fun hpc => (h.ended hpc).imp_right (.imp_left himp)
  spoken := h.spoken
  closing := h.closing

/-- A way out has a frame whatever the addresses look like, or none. -/
theorem frame_isSome {why : ServerExit} {text : IpText} {frame : ServerFrame}
    (hframe : why.frame text = some frame) (text' : IpText) :
    (why.frame text').isSome = true := by
  cases why <;> first | rfl | cases hframe

theorem leave_closing (t : ServerState) (text : IpText) {why why' : ServerExit}
    (hmain : (t.leave text why).main = .closing why') (text' : IpText) :
    (why'.frame text').isSome = true := by
  unfold leave at hmain
  split at hmain
  · next hframe =>
    obtain rfl := ServerPc.closing.inj hmain
    exact frame_isSome hframe text'
  · cases hmain

/-- The main loop comes to its last send only with a frame. -/
theorem step_closing (hs : s.step config metadata l = some s') {why : ServerExit}
    (hmain' : s'.main = .closing why) :
    s.main = .closing why ∨ ∀ text, (why.frame text).isSome = true := by
  cases step_iff.mp hs with
  | recvFirst hmain =>
    unfold onFirst at hmain'
    split at hmain'
    · exact .inr (leave_closing _ _ hmain')
    · exact .inr (leave_closing _ _ hmain')
    · split at hmain'
      · cases hmain'
      · exact .inr (leave_closing _ _ hmain')
  | recvNext hmain =>
    unfold onNext at hmain'
    split at hmain'
    · cases hmain'
    · cases hmain'
    · split at hmain'
      · cases hmain'
      · cases hmain'
      · cases hmain'
      · cases hmain'
      · exact .inr (leave_closing _ _ hmain')
      · exact .inr (leave_closing _ _ hmain')
  | resolve hmain =>
    unfold onResolve at hmain'
    split at hmain'
    · cases hmain'
    · exact .inr (leave_closing _ _ hmain')
  | dial hmain =>
    unfold onDial at hmain'
    split at hmain'
    · split at hmain'
      · cases hmain'
      · exact .inr (leave_closing _ _ hmain')
    · cases hmain'
    · cases hmain'
  | openTimeout | idleTimeout | exhausted | firstWriteErr | writeErr | shutdownOut =>
    exact .inr (leave_closing _ _ hmain')
  | send hout | sendFail hout =>
    -- after a send the last one is behind
    unfold afterSend at hmain'
    split at hmain'
    · cases hmain'
    · cases hmain'
    · cases hmain'
    · exact .inl hmain'
  | task _ => exact .inl hmain'
  | _ => cases hmain'

/-- The reading task ends for one of these reasons. -/
theorem task_ended {t t' : ReadTask ServerFrame} {tl : TaskLabel ServerFrame}
    (hinv : ReadTask.Inv serverKit targetInput t) (hs : t.step serverKit tl = some t')
    (hfail : ∀ frame last, tl = .sendFail frame last → gone) (hpc : t'.pc = .finished) :
    t'.abortRequested = true ∨ gone ∨ ∃ frame ∈ t'.sent, frame.isLast = true := by
  cases ReadTask.step_iff.mp hs with
  | read _ _ _ _ => cases hpc
  | eof _ _ => cases hpc
  | readErr _ => cases hpc
  | sendFail _ => exact .inr (.inl (hfail _ _ rfl))
  | cancel habort _ _ => exact .inl habort
  | @send frame last hhand =>
    -- it goes on after data
    have hmem : frame ∈ t.sent ++ [frame] := by simp
    rcases hinv.in_hand _ _ hhand with ⟨rfl, -⟩ | ⟨-, rfl, -⟩ | ⟨-, reason, rfl⟩
    · cases hpc
    · exact .inr (.inr ⟨_, hmem, rfl⟩)
    · exact .inr (.inr ⟨_, hmem, rfl⟩)

theorem Course.step (h : Course gone s) (hinv : Inv targetInput s)
    (hs : s.step config metadata l = some s')
    (hfail : ∀ frame last, l = .task (.sendFail frame last) → gone) : Course gone s' := by
  have heffect := step_effect hs
  have hspoken : ∀ frame ∈ s.task.sent, frame ∈ s'.sent := by
    intro frame hmem
    rw [heffect.sent]
    exact List.mem_append_left _ (h.spoken frame hmem)
  have hclosing : ∀ why, s'.main = .closing why → ∀ text, (why.frame text).isSome = true := by
    intro why hmain'
    rcases step_closing hs hmain' with hmain | hsome
    · exact h.closing why hmain
    · exact hsome
  rcases heffect.task with ⟨tl, rfl, ht⟩ | hsame | habort | ⟨-, hspawn⟩
  · refine ⟨task_ended hinv.task ht fun frame last heq => hfail frame last (by rw [heq]), ?_,
      hclosing⟩
    intro frame hmem
    rw [ReadTask.step_sent ht] at hmem
    rw [heffect.sent]
    exact List.mem_append.mpr ((List.mem_append.mp hmem).imp_left (h.spoken frame))
  · exact ⟨hsame ▸ h.ended, hsame ▸ hspoken, hclosing⟩
  · refine ⟨fun hpc => ?_, by rw [habort, ReadTask.abort_sent]; exact hspoken, hclosing⟩
    rw [habort, ReadTask.abort_pc] at hpc
    rw [habort, ReadTask.abort_requested (by simp [hpc])]
    exact .inl rfl
  · refine ⟨fun hpc => ?_, by rw [hspawn]; exact hspoken, hclosing⟩
    rw [hspawn] at hpc
    cases hpc

/-- A request that was let in stays so. -/
theorem step_admitted (hs : s.step config metadata l = some s')
    (hadmitted : s.main.admitted = true) : s'.main.admitted = true := by
  have hleave : ∀ (t : ServerState) (text : IpText) (why : ServerExit),
      (t.leave text why).main.admitted = true := by
    intro t text why
    unfold leave
    split <;> rfl
  cases step_iff.mp hs with
  | authenticated hmain _ | rejected hmain _ =>
    rw [hmain] at hadmitted
    cases hadmitted
  | recvFirst hmain =>
    unfold onFirst
    split
    · exact hleave _ _ _
    · exact hleave _ _ _
    · split
      · rfl
      · exact hleave _ _ _
  | recvNext hmain =>
    unfold onNext
    split
    · rfl
    · rfl
    · split
      · rfl
      · rfl
      · rfl
      · rfl
      · exact hleave _ _ _
      · exact hleave _ _ _
  | resolve hmain =>
    unfold onResolve
    split
    · rfl
    · exact hleave _ _ _
  | dial hmain =>
    unfold onDial
    split
    · split
      · rfl
      · exact hleave _ _ _
    · rfl
    · rfl
  | openTimeout | idleTimeout | exhausted | firstWriteErr | writeErr | shutdownOut =>
    exact hleave _ _ _
  | send hout | sendFail hout =>
    unfold afterSend
    split <;> first | rfl | exact hadmitted
  | task _ => exact hadmitted
  | _ => rfl

/-- Only `authenticate` takes the server away from its start. -/
theorem step_begun (hs : s.step config metadata l = some s') (hidle : s.main = .idle) :
    l = .authenticate ∨ s'.main = .idle := by
  cases step_iff.mp hs with
  | authenticated | rejected => exact .inl rfl
  | task _ => exact .inr hidle
  | send hout => simp [outgoing, hidle] at hout
  | sendFail hout => simp [outgoing, hidle] at hout
  | recvFirst hmain | recvNext hmain | openTimeout hmain | idleTimeout hmain | resolve hmain
  | dial hmain | exhausted hmain | firstWrite hmain | write hmain | firstWriteDone hmain
  | writeDone hmain | firstWriteErr hmain | writeErr hmain | shutdown hmain | shutdownOut hmain =>
    rw [hmain] at hidle
    cases hidle

end course

end ServerState

namespace TunnelState

/-! ## What a run knows -/

/-- What holds in every lawful run, whatever has failed. -/
structure Course (s : TunnelState) : Prop where
  requested : s.client.main.asked = true ∨ s.client.task.pc ≠ .idle ∨ s.server.main ≠ .idle ∨
    s.cq.status = .failed → s.requested = true
  unasked : s.client.main = .start ∨ s.client.main = .preparing → s.requested = false
  admitted : s.client.main.met = true → s.server.main.admitted = true
  client_task : s.client.TaskPhase
  undecided : s.client.Undecided
  server_task : s.server.TaskPhase
  server : s.server.Course (s.sq.status = .failed)
  /-- A queue ends only with its direction. -/
  queues : s.cq.status ≠ .ended ∧ s.sq.status ≠ .ended
  /-- A direction ends when its sender is through. -/
  up_ended : s.c2s.status = .ended → s.clientSilent = true ∧ s.cq.queue = []
  down_ended : s.s2c.status = .ended → s.serverSilent = true ∧ s.sq.queue = []

section course
variable {setup : TunnelSetup} {s s' : TunnelState}

theorem course_fresh (setup : TunnelSetup) : Course (fresh setup) where
  requested := by
    rintro (h | h | h | h)
    · cases h
    · exact absurd rfl h
    · exact absurd rfl h
    · cases h
  unasked := fun _ => rfl
  admitted := fun h => by cases h
  client_task := ⟨fun _ => ⟨rfl, rfl⟩, fun h => by cases h⟩
  undecided := fun h => by cases h
  server_task := ServerState.taskPhase_fresh _
  server := ⟨fun h => (by cases h), fun _ hmem => (by cases hmem), fun _ h => (by cases h)⟩
  queues := ⟨fun h => (by cases h), fun h => (by cases h)⟩
  up_ended := fun h => by cases h
  down_ended := fun h => by cases h

theorem answered_eq (s : TunnelState) : s.answered = s.server.main.admitted := by
  unfold answered ServerPc.admitted
  cases s.server.main <;> rfl

/-- A client that is through takes no step. -/
theorem client_silent_stuck {l : ClientLabel} (hsilent : s.clientSilent = true)
    (hs : s.step setup (.client l) = some s') : False := by
  obtain ⟨⟨err, hmain⟩, htask⟩ := clientSilent_iff.mp hsilent
  have hclient := (client_step hs).2.1
  rw [ClientState.step_stuck hmain htask] at hclient
  cases hclient

theorem server_silent_stuck {l : ServerLabel} (hsilent : s.serverSilent = true)
    (hs : s.step setup (.server l) = some s') : False := by
  obtain ⟨⟨why, hmain⟩, htask⟩ := serverSilent_iff.mp hsilent
  have hserver := (server_step hs).2.1
  rw [ServerState.step_stuck hmain htask] at hserver
  cases hserver

theorem Course.client_step (h : Course s) (hinv : Inv setup s) {l : ClientLabel}
    (hs : s.step setup (.client l) = some s') : Course s' := by
  obtain ⟨hready, hclient, hcq, hs2c, heq⟩ := TunnelState.client_step hs
  have hserver : s'.server = s.server := by rw [heq]
  have hsq : s'.sq = s.sq := by rw [heq]
  have hc2s : s'.c2s = s.c2s := by rw [heq]
  have hs2cstatus := (receiveIf_spec hs2c).2.2.2
  -- a request that was sent stays so, and the call sends it
  have hrequested : s'.requested = (s.requested || decide (s'.client.main = .calling)) := by
    rw [heq]
  refine
    { requested := fun hcause => ?_
      unasked := fun hpc => ?_
      admitted := fun hmet => ?_
      client_task := h.client_task.step hclient
      undecided := h.undecided.step hinv.client hclient
      server_task := hserver ▸ h.server_task
      server := by rw [hserver, hsq]; exact h.server
      queues := by rw [(Link.offer_spec hcq).1, hsq]; exact h.queues
      up_ended := fun hended => ?_
      down_ended := fun hended => ?_ }
  · rw [hrequested, Bool.or_eq_true, decide_eq_true_eq]
    rw [hserver, (Link.offer_spec hcq).1] at hcause
    rcases hcause with hasked | htask | hcause
    · rcases ClientState.step_asked hclient hasked with hbefore | hcalling
      · exact .inl (h.requested (.inl hbefore))
      · exact .inr hcalling
    · refine .inl ?_
      cases ClientState.step_move hclient with
      | task _ ht => exact h.requested (.inr (.inl (ReadTask.step_spawned ht).1))
      | opening _ _ hsame | stay _ _ hsame | fail _ _ hsame _ =>
        exact h.requested (.inr (.inl (hsame ▸ htask)))
      | enter hmain _ _ _ => exact h.requested (.inl (by rw [hmain]; rfl))
      | finish _ _ habort =>
        rw [habort, ReadTask.abort_pc] at htask
        exact h.requested (.inr (.inl htask))
    · exact .inl (h.requested (.inr (.inr hcause)))
  · have hnot : s'.client.main ≠ .calling := by
      rcases hpc with hpc | hpc <;> simp [hpc]
    rw [hrequested, h.unasked (ClientState.step_unasked hclient hpc)]
    simp [hnot]
  · rw [hserver]
    rcases ClientState.step_met hclient hmet with hbefore | rfl
    · exact h.admitted hbefore
    · have hanswered : s.answered = true := hready
      rwa [answered_eq] at hanswered
  · rw [hc2s] at hended
    exact (client_silent_stuck (h.up_ended hended).1 hs).elim
  · rw [hs2cstatus] at hended
    rw [serverSilent, hserver, hsq]
    exact h.down_ended hended

theorem Course.server_step (h : Course s) (hinv : Inv setup s) {l : ServerLabel}
    (hs : s.step setup (.server l) = some s') : Course s' := by
  obtain ⟨hready, hserver, hsq, hc2s, heq⟩ := TunnelState.server_step hs
  have hclient : s'.client = s.client := by rw [heq]
  have hcq : s'.cq = s.cq := by rw [heq]
  have hs2c : s'.s2c = s.s2c := by rw [heq]
  have hrequested : s'.requested = s.requested := by rw [heq]
  have hsqstatus := (Link.offer_spec hsq).1
  have hc2sstatus := (receiveIf_spec hc2s).2.2.2
  refine
    { requested := fun hcause => ?_
      unasked := fun hpc => hrequested.trans (h.unasked (hclient ▸ hpc))
      admitted := fun hmet => ServerState.step_admitted hserver (h.admitted (hclient ▸ hmet))
      client_task := hclient ▸ h.client_task
      undecided := hclient ▸ h.undecided
      server_task := h.server_task.step hserver
      server := ?_
      queues := by rw [hsqstatus, hcq]; exact h.queues
      up_ended := fun hended => ?_
      down_ended := fun hended => ?_ }
  · rw [hclient, hcq] at hcause
    rw [hrequested]
    rcases hcause with hasked | htask | hbegun | hfailed
    · exact h.requested (.inl hasked)
    · exact h.requested (.inr (.inl htask))
    · by_cases hidle : s.server.main = .idle
      · rcases ServerState.step_begun hserver hidle with rfl | hidle'
        · exact hready
        · exact absurd hidle' hbegun
      · exact h.requested (.inr (.inr (.inl hidle)))
    · exact h.requested (.inr (.inr (.inr hfailed)))
  · rw [hsqstatus]
    refine h.server.step hinv.server hserver ?_
    rintro frame last rfl
    simpa [serverReady] using hready
  · rw [hc2sstatus] at hended
    rw [clientSilent, hclient, hcq]
    exact h.up_ended hended
  · rw [hs2c] at hended
    exact (server_silent_stuck (h.down_ended hended).1 hs).elim

/-- **Every lawful step keeps this**, the faults included. -/
theorem Course.step {l : TunnelLabel} (h : Course s) (hinv : Inv setup s)
    (hlawful : l.lawful s = true) (hs : s.step setup l = some s') : Course s' := by
  cases step_iff.mp hs with
  | client _ _ _ _ => exact h.client_step hinv hs
  | server _ _ _ _ => exact h.server_step hinv hs
  | pumpUp hrequested hpop hpush =>
    have hlive := (Link.push_spec hpush).2.1
    exact
      { h with
        requested := fun _ => hrequested
        queues := ⟨(Link.pop_spec hpop).2.1 ▸ h.queues.1, h.queues.2⟩
        up_ended := fun hended => by
          rw [hlive] at hended
          cases hended }
  | pumpDown hpop hpush =>
    have hlive := (Link.push_spec hpush).2.1
    have hstatus := (Link.pop_spec hpop).2.1
    exact
      { h with
        server := by
          show s.server.Course _
          rw [hstatus]
          exact h.server
        queues := ⟨h.queues.1, hstatus ▸ h.queues.2⟩
        down_ended := fun hended => by
          rw [hlive] at hended
          cases hended }
  | endUp hrequested hsilent hempty _ =>
    exact { h with up_ended := fun _ => ⟨hsilent, hempty⟩ }
  | endDown hsilent hempty _ =>
    exact { h with down_ended := fun _ => ⟨hsilent, hempty⟩ }
  | cutUp _ => exact { h with up_ended := fun hended => by cases hended }
  | cutDown _ => exact { h with down_ended := fun hended => by cases hended }
  | dropUp _ =>
    exact
      { h with
        requested := fun _ => hlawful
        unasked := h.unasked
        queues := ⟨fun hended => (by cases hended), h.queues.2⟩
        up_ended := fun hended => ⟨(h.up_ended hended).1, rfl⟩ }
  | dropDown _ =>
    exact
      { h with
        server := h.server.mono fun _ => rfl
        queues := ⟨h.queues.1, fun hended => (by cases hended)⟩
        down_ended := fun hended => ⟨(h.down_ended hended).1, rfl⟩ }

theorem course_of_reachable (hr : (lawfulSystem setup).Reachable s) : Course s := by
  refine Lts.System.invariant_of_reachable (lawfulSystem setup) Course ?_ ?_ s hr
  · rintro s rfl
    exact course_fresh setup
  · intro s l s' hr h hs
    obtain ⟨hlawful, hs⟩ := Lts.System.restrict_step_iff.mp hs
    exact h.step (inv_of_reachable hr.of_restrict) hlawful hs

/-! ## A tunnel without a due step -/

/-- No step comes by itself. -/
def Still (setup : TunnelSetup) (s : TunnelState) : Prop :=
  ∀ l, l.due s = true → s.step setup l = none

/-- A client step is impossible on its own when nothing else keeps it back. -/
theorem client_blocked {l : ClientLabel} {cq : Link ClientFrame}
    (hnone : s.step setup (.client l) = none) (hready : s.clientReady l = true)
    (hcq : s.cq.offer outboundQueue (l.frames setup.target) = some cq) (hitem : l.item = none) :
    s.client.step setup.target l = none := by
  by_contra hsome
  obtain ⟨client, hclient⟩ := Option.ne_none_iff_exists'.mp hsome
  have hs2c : receiveIf s.s2c l.item = some s.s2c := by
    rw [hitem]
    rfl
  exact client_enabled hready hclient hcq hs2c hnone

/-- The same of a step that sends nothing. -/
theorem client_blocked_quiet {l : ClientLabel} (hnone : s.step setup (.client l) = none)
    (hready : s.clientReady l = true) (hframes : l.frames setup.target = [])
    (hitem : l.item = none) : s.client.step setup.target l = none := by
  have hcq : s.cq.offer outboundQueue (l.frames setup.target) = some s.cq := by
    rw [hframes, Link.offer_nil]
  exact client_blocked hnone hready hcq hitem

theorem server_blocked {l : ServerLabel} {sq : Link ServerFrame}
    (hnone : s.step setup (.server l) = none) (hready : s.serverReady l = true)
    (hsq : s.sq.offer outboundQueue l.frames = some sq) (hitem : l.item = none) :
    s.server.step setup.server setup.metadata l = none := by
  by_contra hsome
  obtain ⟨server, hserver⟩ := Option.ne_none_iff_exists'.mp hsome
  have hc2s : receiveIf s.c2s l.item = some s.c2s := by
    rw [hitem]
    rfl
  exact server_enabled hready hserver hsq hc2s hnone

theorem server_blocked_quiet {l : ServerLabel} (hnone : s.step setup (.server l) = none)
    (hready : s.serverReady l = true) (hframes : l.frames = []) (hitem : l.item = none) :
    s.server.step setup.server setup.metadata l = none := by
  have hsq : s.sq.offer outboundQueue l.frames = some s.sq := by
    rw [hframes, Link.offer_nil]
  exact server_blocked hnone hready hsq hitem

/-- There is an item to take, unless the direction is live and empty. -/
theorem exists_item {F : Type} [DecidableEq F] (q : Link F)
    (h : ¬ (q.status = .live ∧ q.queue = [])) : ∃ item q', receive q item = some q' := by
  cases hqueue : q.queue with
  | cons frame rest =>
    obtain ⟨q', hq'⟩ := receive_enabled hqueue
    exact ⟨_, q', hq'⟩
  | nil =>
    cases hstatus : q.status with
    | live => exact absurd ⟨hstatus, hqueue⟩ h
    | ended => exact ⟨none, q, by simp [receive, hqueue, hstatus]⟩
    | failed => exact ⟨some (.error ""), q, by simp [receive, hqueue, hstatus]⟩

/-- While the way up is open the client's queue is drained, and so is the server's. -/
theorem Still.cq_drained (hstill : Still setup s) (hrequested : s.requested = true)
    (hlive : s.c2s.status = .live) : s.cq.queue = [] := by
  by_contra hne
  obtain ⟨frame, rest, hqueue⟩ := List.exists_cons_of_ne_nil hne
  obtain ⟨cq, hpop⟩ := Link.pop_isSome hqueue
  obtain ⟨c2s, hpush⟩ := Link.push_isSome hlive frame
  have hnone := hstill .pumpUp rfl
  rw [step_iff.mpr (.pumpUp hrequested hpop hpush)] at hnone
  cases hnone

theorem Still.sq_drained (hstill : Still setup s) (hlive : s.s2c.status = .live) :
    s.sq.queue = [] := by
  by_contra hne
  obtain ⟨frame, rest, hqueue⟩ := List.exists_cons_of_ne_nil hne
  obtain ⟨sq, hpop⟩ := Link.pop_isSome hqueue
  obtain ⟨s2c, hpush⟩ := Link.push_isSome hlive frame
  have hnone := hstill .pumpDown rfl
  rw [step_iff.mpr (.pumpDown hpop hpush)] at hnone
  cases hnone

/-- The client's queue has room, or is gone. -/
theorem Course.cq_takes (h : Course s) (hstill : Still setup s) (hrequested : s.requested = true)
    (hsilent : s.clientSilent = false) (frame : ClientFrame) :
    s.cq.status = .failed ∨ ∃ cq, s.cq.offer outboundQueue [frame] = some cq := by
  cases hcq : s.cq.status with
  | failed => exact .inl rfl
  | ended => exact absurd hcq h.queues.1
  | live =>
    refine .inr ?_
    cases hc2s : s.c2s.status with
    | live => exact room hcq (hstill.cq_drained hrequested hc2s) frame
    | ended =>
      rw [(h.up_ended hc2s).1] at hsilent
      cases hsilent
    -- the queue of a direction that was reset is dropped
    | failed =>
      have hnone := hstill .dropUp (by simp [TunnelLabel.due, hrequested, hc2s])
      rw [step_iff.mpr (.dropUp (by simp [hcq]))] at hnone
      cases hnone

theorem Course.sq_takes (h : Course s) (hstill : Still setup s) (hsilent : s.serverSilent = false)
    (frame : ServerFrame) :
    s.sq.status = .failed ∨ ∃ sq, s.sq.offer outboundQueue [frame] = some sq := by
  cases hsq : s.sq.status with
  | failed => exact .inl rfl
  | ended => exact absurd hsq h.queues.2
  | live =>
    refine .inr ?_
    cases hs2c : s.s2c.status with
    | live => exact room hsq (hstill.sq_drained hs2c) frame
    | ended =>
      rw [(h.down_ended hs2c).1] at hsilent
      cases hsilent
    | failed =>
      have hnone := hstill .dropDown (by simp [TunnelLabel.due, hs2c])
      rw [step_iff.mpr (.dropDown (by simp [hsq]))] at hnone
      cases hnone

/-! ### The tasks -/

theorem TaskLabel.due_of_calm {F : Type} {l : TaskLabel F} (hcalm : l.calm = true) :
    l.due = true := by
  cases l <;> first | rfl | cases hcalm

/-- The client's task is through. -/
theorem Course.client_task_done (h : Course s) (hstill : Still setup s) :
    s.client.task.pc = .idle ∨ s.client.task.pc = .finished := by
  cases hpc : s.client.task.pc with
  | idle => exact .inl rfl
  | finished => exact .inr rfl
  | reading =>
    obtain ⟨l, t, hcalm, -, hframes, ht⟩ := ReadTask.exists_read clientKit hpc
    -- a read needs nothing of the queue
    have hready : s.clientReady (.task l) = true := by
      cases l <;> first | rfl | cases hcalm
    have hnone := client_blocked_quiet (hstill (.client (.task l)) (TaskLabel.due_of_calm hcalm))
      hready hframes rfl
    simp [ClientState.step, ht] at hnone
  | sending frame last =>
    have hrequested := h.requested (.inr (.inl (by simp [hpc])))
    have hsilent : s.clientSilent = false := by
      rw [Bool.eq_false_iff]
      intro hsilent
      rcases (clientSilent_iff.mp hsilent).2 with hidle | hdone <;> simp [hpc] at *
    rcases h.cq_takes hstill hrequested hsilent frame with hgone | ⟨cq, hcq⟩
    · have hnone := client_blocked_quiet (hstill (.client (.task (.sendFail frame last))) rfl)
        (by simp [clientReady, hgone]) rfl rfl
      simp [ClientState.step, ReadTask.step, hpc] at hnone
    · have hnone := client_blocked (hstill (.client (.task (.send frame last))) rfl) rfl hcq rfl
      simp [ClientState.step, ReadTask.step, hpc] at hnone

/-- So is the server's. -/
theorem Course.server_task_done (h : Course s) (hstill : Still setup s) :
    s.server.task.pc = .idle ∨ s.server.task.pc = .finished := by
  cases hpc : s.server.task.pc with
  | idle => exact .inl rfl
  | finished => exact .inr rfl
  | reading =>
    obtain ⟨l, t, hcalm, -, hframes, ht⟩ := ReadTask.exists_read serverKit hpc
    have hready : s.serverReady (.task l) = true := by
      cases l <;> first | rfl | cases hcalm
    have hnone := server_blocked_quiet (hstill (.server (.task l)) (TaskLabel.due_of_calm hcalm))
      hready hframes rfl
    simp [ServerState.step, ht] at hnone
  | sending frame last =>
    have hsilent : s.serverSilent = false := by
      rw [Bool.eq_false_iff]
      intro hsilent
      rcases (serverSilent_iff.mp hsilent).2 with hidle | hdone <;> simp [hpc] at *
    rcases h.sq_takes hstill hsilent frame with hgone | ⟨sq, hsq⟩
    · have hnone := server_blocked_quiet (hstill (.server (.task (.sendFail frame last))) rfl)
        (by simp [serverReady, hgone]) rfl rfl
      simp [ServerState.step, ReadTask.step, hpc] at hnone
    · have hnone := server_blocked (hstill (.server (.task (.send frame last))) rfl) rfl hsq rfl
      simp [ServerState.step, ReadTask.step, hpc] at hnone

/-! ### The main loops -/

/-- The server waits for a frame, with none under way, or is through. -/
theorem Course.server_main (h : Course s) (hstill : Still setup s) :
    ((s.server.main = .waitOpen ∨ s.server.main = .relaying) ∧ s.c2s.status = .live ∧
        s.c2s.queue = []) ∨
      (∃ why, s.server.main = .returned why) ∨ (∃ err, s.server.main = .rejected err) ∨
      s.server.main = .idle ∧ s.requested = false := by
  -- a step that needs neither queue nor stream
  have hfree : ∀ {l : ServerLabel}, (TunnelLabel.server l).due s = true →
      s.serverReady l = true → l.frames = [] → l.item = none →
      s.server.step setup.server setup.metadata l = none := by
    intro l hdue hready hframes hitem
    exact server_blocked_quiet (hstill _ hdue) hready hframes hitem
  -- a wait for a frame
  have hwait : (s.server.main = .waitOpen ∨ s.server.main = .relaying) →
      s.c2s.status = .live ∧ s.c2s.queue = [] := by
    intro hmain
    by_contra hnot
    obtain ⟨item, c2s, hc2s⟩ := exists_item s.c2s hnot
    have hstep : ∃ server,
        s.server.step setup.server setup.metadata (.recv item) = some server := by
      rcases hmain with hmain | hmain <;> simp [ServerState.step, hmain]
    obtain ⟨server, hserver⟩ := hstep
    exact server_enabled rfl hserver rfl hc2s (hstill (.server (.recv item)) rfl)
  -- a send of the main loop
  have hsend : ∀ frame : ServerFrame, s.server.outgoing setup.server.text = some frame →
      (∀ why, s.server.main ≠ .returned why) → False := by
    intro frame hout hnot
    have hsilent : s.serverSilent = false := by
      rw [Bool.eq_false_iff]
      intro hsilent
      obtain ⟨⟨why, hmain⟩, -⟩ := serverSilent_iff.mp hsilent
      exact hnot why hmain
    rcases h.sq_takes hstill hsilent frame with hgone | ⟨sq, hsq⟩
    · have hnone := server_blocked_quiet (hstill (.server .sendFail) rfl)
        (by simp [serverReady, hgone]) rfl rfl
      simp [ServerState.step, hout] at hnone
    · have hnone := server_blocked (hstill (.server (.send frame)) rfl) rfl hsq rfl
      simp [ServerState.step, hout] at hnone
  cases hmain : s.server.main with
  | waitOpen => exact .inl ⟨.inl rfl, hwait (.inl hmain)⟩
  | relaying => exact .inl ⟨.inr rfl, hwait (.inr hmain)⟩
  | returned why => exact .inr (.inl ⟨why, rfl⟩)
  | rejected err => exact .inr (.inr (.inl ⟨err, rfl⟩))
  | idle =>
    refine .inr (.inr (.inr ⟨rfl, ?_⟩))
    rw [Bool.eq_false_iff]
    intro hrequested
    have hnone := hfree (l := .authenticate) rfl hrequested rfl rfl
    simp only [ServerState.step, hmain, if_pos] at hnone
    split at hnone <;> cases hnone
  | resolving target =>
    have hnone := hfree (l := .resolve (.error "")) rfl rfl rfl rfl
    simp [ServerState.step, hmain] at hnone
  | connecting target rest lastErr =>
    cases rest with
    | nil =>
      have hnone := hfree (l := .exhausted) rfl rfl rfl rfl
      simp [ServerState.step, hmain] at hnone
    | cons addr rest =>
      have hnone := hfree (l := .dial .timedOut) rfl rfl rfl rfl
      simp [ServerState.step, hmain] at hnone
  | writingFirst rest | writing rest =>
    cases rest with
    | nil =>
      have hnone := hfree (l := .targetWriteDone) rfl rfl rfl rfl
      simp [ServerState.step, hmain] at hnone
    | cons b rest =>
      have hnone := hfree (l := .targetWrite 1) rfl rfl rfl rfl
      simp [ServerState.step, hmain] at hnone
  | shutting next =>
    have hnone := hfree (l := .shutdownDone) rfl rfl rfl rfl
    cases next <;> simp [ServerState.step, hmain] at hnone
  | openOk =>
    refine (hsend (openResultFrame true "") ?_ (by simp [hmain])).elim
    simp [ServerState.outgoing, hmain]
  | pong millis =>
    refine (hsend (pongFrame millis) ?_ (by simp [hmain])).elim
    simp [ServerState.outgoing, hmain]
  | closing why =>
    obtain ⟨frame, hframe⟩ :=
      Option.isSome_iff_exists.mp (h.server.closing why hmain setup.server.text)
    refine (hsend frame ?_ (by simp [hmain])).elim
    simp [ServerState.outgoing, hmain, hframe]

/-- The client waits for a frame, with none under way, or is through. -/
theorem Course.client_main (h : Course s) (hinv : Inv setup s) (hstill : Still setup s) :
    ((s.client.main = .awaitOpen ∨ s.client.main = .relaying) ∧ s.s2c.status = .live ∧
        s.s2c.queue = []) ∨
      ∃ err, s.client.main = .returned err := by
  have hfree : ∀ {l : ClientLabel}, (TunnelLabel.client l).due s = true →
      s.clientReady l = true → l.frames setup.target = [] → l.item = none →
      s.client.step setup.target l = none := by
    intro l hdue hready hframes hitem
    exact client_blocked_quiet (hstill _ hdue) hready hframes hitem
  have hwait : (s.client.main = .awaitOpen ∨ s.client.main = .relaying) →
      s.s2c.status = .live ∧ s.s2c.queue = [] := by
    intro hmain
    by_contra hnot
    obtain ⟨item, s2c, hs2c⟩ := exists_item s.s2c hnot
    have hstep : ∃ client, s.client.step setup.target (.recv item) = some client := by
      rcases hmain with hmain | hmain <;> simp [ClientState.step, hmain]
    obtain ⟨client, hclient⟩ := hstep
    exact client_enabled rfl hclient rfl hs2c (hstill (.client (.recv item)) rfl)
  cases hmain : s.client.main with
  | awaitOpen => exact .inl ⟨.inl rfl, hwait (.inl hmain)⟩
  | relaying => exact .inl ⟨.inr rfl, hwait (.inr hmain)⟩
  | returned err => exact .inr ⟨err, rfl⟩
  | start =>
    -- the queue is with `relay_grpc` and empty
    have hlive : s.cq.status = .live := by
      cases hstatus : s.cq.status with
      | live => rfl
      | ended => exact absurd hstatus h.queues.1
      | failed =>
        have hasked := h.requested (.inr (.inr (.inr hstatus)))
        rw [h.unasked (.inl hmain)] at hasked
        cases hasked
    have hempty : s.cq.queue = [] := by
      have horder := s.cq.in_order
      rw [hinv.wired.cq_sent, hinv.client.sent_eq, if_pos hmain] at horder
      exact (List.append_eq_nil_iff.mp (List.prefix_nil.mp horder)).2
    obtain ⟨cq, hcq⟩ := room hlive hempty (openFrame setup.target)
    have hnone := client_blocked (hstill (.client .sendOpen) rfl) rfl hcq rfl
    simp [ClientState.step, hmain] at hnone
  | preparing =>
    have hnone := hfree (l := .tokenOk) rfl rfl rfl rfl
    simp [ClientState.step, hmain] at hnone
  | calling =>
    have hrequested := h.requested (.inl (by rw [hmain]; rfl))
    have hanswer : s.server.main.admitted = true ∨ ∃ err, s.server.main = .rejected err := by
      cases hserver : s.server.main with
      | rejected err => exact .inr ⟨err, rfl⟩
      | idle =>
        rcases h.server_main hstill with ⟨hwait, -⟩ | ⟨why, hpc⟩ | ⟨err, hpc⟩ | ⟨-, hnot⟩
        · simp [hserver] at hwait
        · simp [hserver] at hpc
        · simp [hserver] at hpc
        · rw [hrequested] at hnot
          cases hnot
      | _ => exact .inl rfl
    rcases hanswer with hadmitted | ⟨err, hrejected⟩
    · rw [← answered_eq] at hadmitted
      have hnone := hfree (l := .callOk) rfl hadmitted rfl rfl
      simp [ClientState.step, hmain] at hnone
    · have hnone := hfree (l := .callErr "") (by simp [TunnelLabel.due, hrejected]) rfl rfl rfl
      simp [ClientState.step, hmain] at hnone
  | writing rest =>
    cases rest with
    | nil =>
      have hnone := hfree (l := .localWriteDone) rfl rfl rfl rfl
      simp [ClientState.step, hmain] at hnone
    | cons b rest =>
      have hnone := hfree (l := .localWrite 1) rfl rfl rfl rfl
      simp [ClientState.step, hmain] at hnone
  | shutting =>
    have hnone := hfree (l := .localShutdownOk) rfl rfl rfl rfl
    simp [ClientState.step, hmain] at hnone

/-! ### Who waits for whom -/

/-- A client that waits while nothing comes has got all the server has said. -/
theorem Still.heard_all (hstill : Still setup s) (hinv : Inv setup s)
    (hlive : s.s2c.status = .live) (hempty : s.s2c.queue = []) :
    s.sq.status ≠ .failed ∧ s.client.received = s.server.sent := by
  have hsq : s.sq.status ≠ .failed := by
    intro hgone
    have hnone := hstill (.cutDown 0) (by simp [TunnelLabel.due, hgone])
    rw [step_iff.mpr (.cutDown (by simp [hlive]))] at hnone
    cases hnone
  refine ⟨hsq, ?_⟩
  rw [hinv.wired.client_received, ← hinv.wired.sq_sent]
  exact series_drained hinv.wired.s2c_sent hsq (by simp [hlive]) (hstill.sq_drained hlive) hempty

/-- So has a server all the client has said. -/
theorem Still.told_all (hstill : Still setup s) (hinv : Inv setup s)
    (hrequested : s.requested = true) (hlive : s.c2s.status = .live) (hempty : s.c2s.queue = []) :
    s.server.received = s.client.sent := by
  have hcq : s.cq.status ≠ .failed := by
    intro hgone
    have hnone := hstill (.cutUp 0) (by simp [TunnelLabel.due, hgone])
    rw [step_iff.mpr (.cutUp (by simp [hlive]))] at hnone
    cases hnone
  rw [hinv.wired.server_received, ← hinv.wired.cq_sent]
  exact series_drained hinv.wired.c2s_sent hcq (by simp [hlive])
    (hstill.cq_drained hrequested hlive) hempty

/-- The server's task, when it is through without having been told to stop and its
    queue is there, has sent a last frame. -/
theorem Course.last_sent (h : Course s) (hstill : Still setup s)
    (hmain : s.server.main = .relaying) (hsq : s.sq.status ≠ .failed) :
    ∃ frame ∈ s.server.sent, frame.isLast = true := by
  obtain ⟨hspawned, habort⟩ := h.server_task.running (by rw [hmain]; rfl) (by simp [hmain])
  have hpc := (h.server_task_done hstill).resolve_left hspawned
  rcases h.server.ended hpc with hyes | hgone | ⟨frame, hmem, hlast⟩
  · rw [habort] at hyes
    cases hyes
  · exact absurd hgone hsq
  · exact ⟨frame, h.server.spoken frame hmem, hlast⟩

/-- The client does not wait for a frame. -/
theorem Course.client_through (h : Course s) (hinv : Inv setup s) (hstill : Still setup s) :
    ∃ err, s.client.main = .returned err := by
  rcases h.client_main hinv hstill with ⟨hwait, hlive, hempty⟩ | hreturned
  swap
  · exact hreturned
  have hmet : s.client.main.met = true := by
    rcases hwait with hmain | hmain <;> rw [hmain] <;> rfl
  have hasked : s.client.main.asked = true := by
    rcases hwait with hmain | hmain <;> rw [hmain] <;> rfl
  have hrequested := h.requested (.inl hasked)
  have hadmitted := h.admitted hmet
  obtain ⟨hsq, hheard⟩ := hstill.heard_all hinv hlive hempty
  rcases h.server_main hstill with ⟨hserver, huplive, hupempty⟩ | hover | ⟨err, hpc⟩ | ⟨hpc, -⟩
  · -- the server waits as well, and has got all that the client has said
    have htold := hstill.told_all hinv hrequested huplive hupempty
    rcases hserver with hserver | hserver
    · rw [hinv.server.nothing_received (by rw [hserver]; rfl), hinv.client.sent_eq,
        if_neg (by rcases hwait with hmain | hmain <;> simp [hmain])] at htold
      cases htold
    · obtain ⟨frame, hmem, hlast⟩ := h.last_sent hstill hserver hsq
      rw [← hheard] at hmem
      rcases hwait with hmain | hmain
      · rw [(hinv.client.not_spawned (by rw [hmain]; rfl)).2] at hmem
        cases hmem
      · rw [h.undecided (by rw [hmain]; rfl) frame hmem] at hlast
        cases hlast
  · -- the server is through, so the stream ends
    have hsilent := serverSilent_iff.mpr ⟨hover, h.server_task_done hstill⟩
    obtain ⟨s2c, hfinish⟩ := Link.finish_isSome hlive
    have hnone := hstill .endDown rfl
    rw [step_iff.mpr (.endDown hsilent (hstill.sq_drained hlive) hfinish)] at hnone
    cases hnone
  · rw [hpc] at hadmitted
    cases hadmitted
  · rw [hpc] at hadmitted
    cases hadmitted

/-- A tunnel without a due step is over. -/
theorem Course.over (h : Course s) (hinv : Inv setup s) (hstill : Still setup s) : Over s where
  client := h.client_through hinv hstill
  client_task := h.client_task_done hstill
  server_task := h.server_task_done hstill
  server := by
    rcases h.server_main hstill with ⟨hwait, hlive, -⟩ | hover
    swap
    · exact hover
    -- the client is through, so the way up ends
    have hne : s.server.main ≠ .idle := by
      rcases hwait with hmain | hmain <;> simp [hmain]
    have hrequested := h.requested (.inr (.inr (.inl hne)))
    have hsilent := clientSilent_iff.mpr
      ⟨h.client_through hinv hstill, h.client_task_done hstill⟩
    obtain ⟨c2s, hfinish⟩ := Link.finish_isSome hlive
    have hnone := hstill .endUp rfl
    rw [step_iff.mpr (.endUp hrequested hsilent (hstill.cq_drained hrequested hlive) hfinish)]
      at hnone
    cases hnone

/-- As long as anything of a tunnel is left, a step comes by itself. -/
theorem over_or_due (hr : (lawfulSystem setup).Reachable s) :
    Over s ∨ ∃ l s', l.due s = true ∧ s.step setup l = some s' := by
  by_cases hstill : Still setup s
  · exact .inl ((course_of_reachable hr).over (inv_of_reachable hr.of_restrict) hstill)
  · simp only [Still, not_forall] at hstill
    obtain ⟨l, hdue, hsome⟩ := hstill
    obtain ⟨s', hs'⟩ := Option.ne_none_iff_exists'.mp hsome
    exact .inr ⟨l, s', hdue, hs'⟩

/-- **No tunnel hangs**: in every state of every run, whatever has failed, no run goes
    on forever, and a step comes by itself as long as anything of the tunnel is left. -/
theorem no_tunnel_hangs (hr : (lawfulSystem setup).Reachable s) :
    Acc (system setup).Next s ∧
      (Over s ∨ ∃ l s', l.due s = true ∧ s.step setup l = some s') :=
  ⟨terminates setup s hr.of_restrict, over_or_due hr⟩

end course

/-- The way down is reset after the opening, with the client still at work: the
    tunnel goes on by itself. -/
theorem no_tunnel_hangs_reset :
    ∃ s, (lawfulSystem exampleSetup).run (fresh exampleSetup)
        (exampleOpen ++ [.cutDown 0]) = some s ∧ s.client.main = .relaying ∧
      ∃ l s', l.due s = true ∧ s.step exampleSetup l = some s' := by
  obtain ⟨s, hrun⟩ : ∃ s, (lawfulSystem exampleSetup).run (fresh exampleSetup)
      (exampleOpen ++ [.cutDown 0]) = some s := ⟨_, rfl⟩
  have hseen : ((lawfulSystem exampleSetup).run (fresh exampleSetup)
      (exampleOpen ++ [.cutDown 0])).map (fun s => s.client.main) = some .relaying := rfl
  rw [hrun, Option.map_some, Option.some.injEq] at hseen
  refine ⟨s, hrun, hseen, ?_⟩
  rcases (no_tunnel_hangs (Lts.System.reachable_of_run (.init rfl) hrun)).2 with hover | hdue
  · obtain ⟨err, hmain⟩ := hover.client
    rw [hseen] at hmain
    cases hmain
  · exact hdue

end TunnelState

end EchProxy
