import EchProxy.Tunnel.Integrity

/-! # Runs without Faults

    A step is calm if no reset, no I/O error and no timeout is behind it, and
    the server lets the tunnel open.  This module says where the parts of a
    tunnel can be in a run of calm steps: the exits that report an error are
    never taken, nothing under way is lost before the client returns, and the
    only way for the client to return is the server's half-close.
-/

namespace EchProxy

open Server Fifo

/-! ## Calm steps -/

/-- The read succeeds and the queue is there. -/
def TaskLabel.calm {F : Type} : TaskLabel F → Bool
  | .readErr _ | .sendFail _ _ => false
  | _ => true

/-- The client's token is fine, the call and the stream do not fail, the local
    socket can be written and shut down. -/
def ClientLabel.calm : ClientLabel → Bool
  | .badToken | .callErr _ | .recv (some (.error _)) | .localWriteErr _
  | .localShutdownErr _ => false
  | .task l => l.calm
  | _ => true

/-- The request is let in, the stream does not fail, no timeout strikes, the
    policy admits the target, the connect succeeds and its peer passes, and
    the target can be written. -/
def ServerLabel.calm (config : ServerConfig) (metadata : MetadataMap) (s : ServerState) :
    ServerLabel → Bool
  | .authenticate => (config.auth.authenticate config.toStr metadata).isOk
  | .resolve answer =>
    match s.main with
    | .resolving target =>
      (config.policy.resolveTarget config.text (fun _ _ => answer) target.targetHost
        target.targetPort).isOk
    | _ => true
  | .dial (.connected peer) => (ServerState.checkPeer config peer).isOk
  | .dial _ | .recv (some (.error _)) | .idleTimeout | .targetWriteErr _ | .sendFail => false
  | .task l => l.calm
  | _ => true

/-- No direction is reset and no queue is dropped; only a client that has
    returned lets go of its end of the way down. -/
def TunnelLabel.calm (setup : TunnelSetup) (s : TunnelState) : TunnelLabel → Bool
  | .client l => l.calm
  | .server l => l.calm setup.server setup.metadata s.server
  | .cutUp _ | .dropUp => false
  | .cutDown _ | .dropDown =>
    match s.client.main with
    | .returned _ => true
    | _ => false
  | _ => true

namespace TunnelState

/-- The runs of calm steps. -/
abbrev calmSystem (setup : TunnelSetup) : Lts.System TunnelState TunnelLabel :=
  (system setup).restrict fun s l => l.calm setup s = true

end TunnelState

/-! ## The reading tasks -/

namespace ReadTask

variable {F : Type} {kit : FrameKit F} {script : Bytes} {t t' : ReadTask F}

/-- A task in a calm run: it sends data and a half-close, and ends with the
    half-close or by an abort. -/
structure Calm (kit : FrameKit F) (t : ReadTask F) : Prop where
  frames : ∀ f ∈ t.sent ++ t.hand, f = kit.halfClose ∨ ∃ bs, f = kit.data bs
  finished : t.pc = .finished → kit.halfClose ∈ t.sent ∨ t.abortRequested = true

theorem calm_fresh (kit : FrameKit F) (script : Bytes) : Calm kit (fresh script) where
  frames := fun _ h => absurd h List.not_mem_nil
  finished := fun h => by cases h

theorem Calm.spawn (h : Calm kit t) : Calm kit t.spawn where
  frames := fun f hf => h.frames f (by
    rcases List.mem_append.mp hf with hf | hf
    · exact List.mem_append_left _ hf
    · cases hf)
  finished := fun hpc => by cases hpc

theorem Calm.abort (h : Calm kit t) : Calm kit t.abort := by
  unfold ReadTask.abort
  split
  · exact h
  · exact ⟨h.frames, fun _ => .inr rfl⟩

/-- Calm steps keep a task calm. -/
theorem Calm.step [DecidableEq F] (h : Calm kit t) (hinv : Inv kit script t) {l : TaskLabel F}
    (hcalm : l.calm = true) (hs : t.step kit l = some t') : Calm kit t' := by
  have hsent : ∀ f ∈ t.sent, f = kit.halfClose ∨ ∃ bs, f = kit.data bs :=
    fun f hf => h.frames f (List.mem_append_left _ hf)
  cases step_iff.mp hs with
  | readErr _ => cases hcalm
  | sendFail _ => cases hcalm
  | @read bytes _ _ _ _ =>
    refine ⟨fun f hf => ?_, fun hpc => by cases hpc⟩
    rcases List.mem_append.mp hf with hf | hf
    · exact hsent f hf
    · exact .inr ⟨bytes, List.mem_singleton.mp hf⟩
  | eof _ _ =>
    refine ⟨fun f hf => ?_, fun hpc => by cases hpc⟩
    rcases List.mem_append.mp hf with hf | hf
    · exact hsent f hf
    · exact .inl (List.mem_singleton.mp hf)
  | @send frame last hpc =>
    have hframe := h.frames frame (List.mem_append_right _ (by simp [hand, hpc]))
    refine ⟨fun f hf => ?_, fun hfinished => ?_⟩
    · rcases List.mem_append.mp hf with hf | hf
      · rcases List.mem_append.mp hf with hf | hf
        · exact hsent f hf
        · exact List.mem_singleton.mp hf ▸ hframe
      · -- after a send nothing is in hand
        cases last <;> cases hf
    -- it ends after its half-close only: data keeps it going, and a reset is not calm
    · rcases hinv.in_hand frame last hpc with ⟨hlast, -⟩ | ⟨-, hhalf, -⟩ | ⟨-, reason, hreason⟩
      · rw [hlast] at hfinished
        cases hfinished
      · exact .inl (by simp [hhalf])
      · rcases hframe with hhalf | ⟨bs, hbs⟩
        · exact absurd (hhalf.symm.trans hreason) (kit.halfClose_ne_reset reason)
        · exact absurd (hreason.symm.trans hbs) (kit.reset_ne_data reason bs)
  | cancel habort _ _ =>
    refine ⟨fun f hf => ?_, fun _ => .inr habort⟩
    rcases List.mem_append.mp hf with hf | hf
    · exact hsent f hf
    · cases hf

/-- A reading task can always read, or see the end of the file. -/
theorem exists_read [DecidableEq F] (kit : FrameKit F) (hpc : t.pc = .reading) :
    ∃ l t', l.calm = true ∧ l ≠ .cancel ∧ l.frames = [] ∧ t.step kit l = some t' := by
  cases hinput : t.input with
  | nil => exact ⟨.eof, _, rfl, by simp, rfl, if_pos ⟨hpc, hinput⟩⟩
  | cons b rest =>
    have hfits : ([b] : Bytes).length ≤ dataChunkSize := by
      show 1 ≤ dataChunkSize
      decide
    refine ⟨.read [b], _, rfl, by simp, rfl, if_pos ⟨hpc, List.cons_ne_nil _ _, hfits, ?_⟩⟩
    rw [hinput]
    exact ⟨rest, rfl⟩

/-- A task that is through takes no step. -/
theorem step_stuck [DecidableEq F] (hpc : t.pc = .idle ∨ t.pc = .finished) (l : TaskLabel F) :
    t.step kit l = none := by
  cases l <;> rcases hpc with hpc | hpc <;> simp [ReadTask.step, hpc]

end ReadTask

/-! ## The client -/

namespace ClientState

variable {target : Open} {localInput : Bytes} {s s' : ClientState}

/-- A client in a calm run. -/
structure Calm (s : ClientState) : Prop where
  task : s.task.Calm clientKit
  no_error : ∀ err, s.main ≠ .returned (some err)
  received_some : s.main.opening = false → s.received ≠ []
  /-- The half-close is what ends the loop. -/
  half_close : serverHalfClose ∈ s.received ↔ s.main = .shutting ∨ s.main = .returned none
  spawned : s.main.opening = false → s.task.pc ≠ .idle
  not_aborted : s.main ≠ .returned none → s.task.abortRequested = false

/-- The item the client waits for: success first, then data up to the
    half-close. -/
def Expects (s : ClientState) (item : StreamItem ServerFrame) : Prop :=
  (s.main = .awaitOpen → item = some (.ok (openResultFrame true ""))) ∧
    (s.main = .relaying →
      item = some (.ok serverHalfClose) ∨ ∃ bs, item = some (.ok (serverData bs)))

theorem calm_fresh (localInput : Bytes) : Calm (fresh localInput) where
  task := ReadTask.calm_fresh _ _
  no_error := fun _ h => by cases h
  received_some := fun h => by cases h
  half_close := by simp [fresh]
  spawned := fun h => by cases h
  not_aborted := fun _ => rfl

/-- The main loop moves on without an item, outside the two ends of the
    loop. -/
theorem Calm.move (h : Calm s) {main : ClientPc} (hopening : main.opening = s.main.opening)
    (hshut : s.main ≠ .shutting) (hret : s.main ≠ .returned none) (hshut' : main ≠ .shutting)
    (hret' : ∀ err, main ≠ .returned err) {sent : List ClientFrame} {written : Bytes} :
    Calm { s with main := main, sent := sent, localWritten := written } where
  task := h.task
  no_error := fun err => hret' (some err)
  received_some := fun hopen => h.received_some (hopening ▸ hopen)
  half_close := by
    have hno : serverHalfClose ∉ s.received := fun hmem =>
      (h.half_close.mp hmem).elim hshut hret
    constructor
    · intro hmem
      exact absurd hmem hno
    · rintro (hmain | hmain)
      · exact absurd hmain hshut'
      · exact absurd hmain (hret' none)
  spawned := fun hopen => h.spawned (hopening ▸ hopen)
  not_aborted := fun _ => h.not_aborted hret

/-- Calm steps keep a client calm, if it gets what it waits for. -/
theorem Calm.step (h : Calm s) (hinv : Inv target localInput s) {l : ClientLabel}
    (hcalm : l.calm = true) (hitem : ∀ item, l = .recv item → s.Expects item)
    (hs : s.step target l = some s') : Calm s' := by
  cases step_iff.mp hs with
  | badToken | callErr | localWriteErr | localShutdownErr => cases hcalm
  | sendOpen hmain | tokenOk hmain | callOk hmain | localWrite hmain | localWriteDone hmain =>
    exact h.move (by rw [hmain]; rfl) (by simp [hmain]) (by simp [hmain]) (by simp) (by simp)
  | @recvFirst item hmain =>
    -- the answer that is expected opens the tunnel
    obtain rfl := (hitem item rfl).1 hmain
    have hopen : s.main.opening = true := by rw [hmain]; rfl
    have hempty := (hinv.not_spawned hopen).2
    exact
      { task := h.task.spawn
        no_error := fun _ hpc => by cases hpc
        received_some := fun _ => by simp [onFirst, note, openResultFrame, StreamItem.frames]
        half_close := by
          simp [onFirst, note, openResultFrame, StreamItem.frames, hempty, serverHalfClose]
        spawned := fun _ hpc => by cases hpc
        not_aborted := fun _ => h.not_aborted (by simp [hmain]) }
  | @recvNext item hmain =>
    have hopen : s.main.opening = false := by rw [hmain]; rfl
    -- a half-close would have brought the loop to its end
    have hno : serverHalfClose ∉ s.received := by
      intro hmem
      rcases h.half_close.mp hmem with hpc | hpc <;> rw [hmain] at hpc <;> cases hpc
    rcases (hitem item rfl).2 hmain with rfl | ⟨bs, rfl⟩
    · exact
        { task := h.task
          no_error := fun _ hpc => by cases hpc
          received_some := fun _ => by simp [onNext, note, serverHalfClose, StreamItem.frames]
          half_close := by simp [onNext, note, serverHalfClose, StreamItem.frames]
          spawned := fun _ => h.spawned hopen
          not_aborted := fun _ => h.not_aborted (by simp [hmain]) }
    · exact
        { task := h.task
          no_error := fun _ hpc => by cases hpc
          received_some := fun _ => by simp [onNext, note, serverData, StreamItem.frames]
          half_close := by
            constructor
            · intro hmem
              rcases List.mem_append.mp hmem with hmem | hmem
              · exact absurd hmem hno
              · cases List.mem_singleton.mp hmem
            · rintro (hpc | hpc) <;> cases hpc
          spawned := fun _ => h.spawned hopen
          not_aborted := fun _ => h.not_aborted (by simp [hmain]) }
  | localShutdownOk hmain =>
    have hopen : s.main.opening = false := by rw [hmain]; rfl
    have hmem : serverHalfClose ∈ s.received := h.half_close.mpr (.inl hmain)
    exact
      { task := h.task.abort
        no_error := fun _ hpc => by cases hpc
        received_some := fun _ => h.received_some hopen
        half_close := ⟨fun _ => .inr rfl, fun _ => hmem⟩
        spawned := fun _ => by
          show s.task.abort.pc ≠ .idle
          rw [ReadTask.abort_pc]
          exact h.spawned hopen
        -- the abort comes with the return, and not before
        not_aborted := fun hne => absurd rfl hne }
  | @task l t ht =>
    exact
      { task := h.task.step hinv.task hcalm ht
        no_error := h.no_error
        received_some := h.received_some
        half_close := h.half_close
        spawned := fun _ => (ReadTask.step_spawned ht).2
        not_aborted := fun hne => by
          show t.abortRequested = false
          rw [ReadTask.step_abort ht]
          exact h.not_aborted hne }

/-- The first two steps of a calm client. -/
theorem step_opening {l : ClientLabel} (hinv : Inv target localInput s) (hcalm : l.calm = true)
    (hs : s.step target l = some s') :
    (s.main = .start → s'.main = .preparing) ∧ (s.main = .preparing → s'.main = .calling) := by
  cases step_iff.mp hs with
  | sendOpen hmain =>
    refine ⟨fun _ => rfl, fun hpc => ?_⟩
    rw [hmain] at hpc
    cases hpc
  | tokenOk hmain =>
    refine ⟨fun hpc => ?_, fun _ => rfl⟩
    rw [hmain] at hpc
    cases hpc
  | badToken => cases hcalm
  | task ht =>
    -- the task does not run yet
    have hspawned := (ReadTask.step_spawned ht).1
    constructor <;> intro hmain <;>
      exact absurd (hinv.not_spawned (by rw [hmain]; rfl)).1 hspawned
  | _ hmain => constructor <;> intro hpc <;> rw [hmain] at hpc <;> cases hpc

/-- A client that returned stays so. -/
theorem step_returned {err : Option RelayError} (hmain : s.main = .returned err)
    {l : ClientLabel} (hs : s.step target l = some s') : s'.main = .returned err := by
  cases step_iff.mp hs with
  | task => exact hmain
  | _ hpc =>
    rw [hmain] at hpc
    cases hpc

/-- A client that returned and whose task is through takes no step. -/
theorem step_stuck {err : Option RelayError} (hmain : s.main = .returned err)
    (htask : s.task.pc = .idle ∨ s.task.pc = .finished) (l : ClientLabel) :
    s.step target l = none := by
  cases l with
  | task l => simp [ClientState.step, ReadTask.step_stuck htask]
  | _ => simp [ClientState.step, hmain]

end ClientState

/-! ## The server -/

/-- The places of the server's main loop in a calm run. -/
def ServerPc.calm : ServerPc → Bool
  | .rejected _ | .pong _ | .closing _ | .connecting _ [] _ => false
  | .shutting (some why) | .returned why => why = .clientClosed
  | _ => true

/-- Success was reported and the reading task spawned. -/
def ServerPc.started : ServerPc → Bool
  | .relaying | .writing _ | .shutting _ | .returned _ => true
  | _ => false

/-- On the way out. -/
def ServerPc.ending : ServerPc → Bool
  | .shutting (some _) | .closing _ | .returned _ => true
  | _ => false

theorem ServerPc.not_started {main : ServerPc} (hcalm : main.calm = true)
    (hnot : main.started = false) : main.looping = false ∧ main.phase ≠ .over := by
  cases main <;> simp_all [ServerPc.calm, ServerPc.started, ServerPc.looping, ServerPc.phase]

namespace ServerState

variable {config : ServerConfig} {metadata : MetadataMap} {targetInput : Bytes}
  {s s' : ServerState}

/-- The server side in a calm run. -/
structure Calm (s : ServerState) : Prop where
  task : s.task.Calm serverKit
  place : s.main.calm = true
  /-- The report of success goes first, everything after it is the task's. -/
  sent_eq : s.sent = if s.main.started then openResultFrame true "" :: s.task.sent else []
  spawned : s.main.started = true → s.task.pc ≠ .idle
  received_some : s.main.phase ≠ .waiting → s.received ≠ []
  /-- At the end everything received is written. -/
  over_written : s.main.phase = .over → s.targetWritten = s.receivedBytes
  not_aborted : s.main.phase ≠ .over → s.task.abortRequested = false

/-- The item the server waits for: `Open` first, then data up to the
    half-close, then the end of the stream. -/
def Expects (s : ServerState) (item : StreamItem ClientFrame) : Prop :=
  (s.main = .waitOpen → ∃ target, item = some (.ok (openFrame target))) ∧
    (s.main = .relaying → item = none ∨ item = some (.ok halfCloseFrame) ∨
      ∃ bs, item = some (.ok (dataFrame bs)))

theorem calm_fresh (targetInput : Bytes) : Calm (fresh targetInput) where
  task := ReadTask.calm_fresh _ _
  place := rfl
  sent_eq := rfl
  spawned := fun h => by cases h
  received_some := fun h => absurd rfl h
  over_written := fun h => by cases h
  not_aborted := fun _ => rfl

/-- The main loop moves on, possibly with frames taken, before its end. -/
theorem Calm.move (h : Calm s) (main : ServerPc) (received : List ClientFrame)
    (conn : Option Target) (lookups : List Lookup) (resolved : Option (List SocketAddr))
    (dials : List (SocketAddr × DialOutcome)) (hcalm : main.calm = true)
    (hstarted : main.started = s.main.started) (hover : s.main.phase ≠ .over)
    (hover' : main.phase ≠ .over) (hsome : main.phase ≠ .waiting → received ≠ []) :
    Calm
      { s with
        main := main
        received := received
        target := conn
        lookups := lookups
        resolved := resolved
        dials := dials } where
  task := h.task
  place := hcalm
  sent_eq := by
    show s.sent = if main.started then _ else _
    rw [hstarted]
    exact h.sent_eq
  spawned := fun hpc => h.spawned (hstarted ▸ hpc)
  received_some := hsome
  over_written := fun hphase => absurd hphase hover'
  not_aborted := fun _ => h.not_aborted hover

/-- The main loop moves on by itself. -/
theorem Calm.goto (h : Calm s) (main : ServerPc) (conn : Option Target)
    (hcalm : main.calm = true) (hstarted : main.started = s.main.started)
    (hover : s.main.phase ≠ .over) (hover' : main.phase ≠ .over)
    (hphase : main.phase ≠ .waiting → s.main.phase ≠ .waiting) :
    Calm { s with main := main, target := conn } :=
  h.move main s.received conn s.lookups s.resolved s.dials hcalm hstarted hover hover'
    fun hne => h.received_some (hphase hne)

/-- The end of the loop, in a calm run the end of the client's stream. -/
theorem Calm.finish (h : Calm s) (hinv : Inv targetInput s)
    (hmain : s.main = .shutting (some .clientClosed)) :
    Calm (s.shutTarget.finish .clientClosed) where
  task := h.task.abort
  place := rfl
  sent_eq := by
    show s.sent = openResultFrame true "" :: s.task.abort.sent
    rw [h.sent_eq, hmain, ReadTask.abort_sent]
    rfl
  spawned := fun _ => by
    show s.task.abort.pc ≠ .idle
    rw [ReadTask.abort_pc]
    exact h.spawned (by rw [hmain]; rfl)
  received_some := fun _ => h.received_some (by simp [hmain, ServerPc.phase])
  over_written := fun _ => by
    -- nothing is in hand on this way out, so all that was received is written
    have hsame : s.shutTarget.main.phase = s.main.phase := rfl
    have hall := hinv.shutdown.written_eq (by rw [hsame]; simp [hmain, ServerPc.phase])
    have hpending : s.shutTarget.main.pending = [] := by
      show s.main.pending = []
      rw [hmain]
      rfl
    rw [hpending, List.append_nil] at hall
    exact hall
  not_aborted := fun hover => absurd rfl hover

/-- Calm steps keep the server calm, if it gets what it waits for. -/
theorem Calm.step (h : Calm s) (hinv : Inv targetInput s) {l : ServerLabel}
    (hcalm : l.calm config metadata s = true) (hitem : ∀ item, l = .recv item → s.Expects item)
    (hs : s.step config metadata l = some s') : Calm s' := by
  have hplace := h.place
  cases step_iff.mp hs with
  | authenticated hmain _ =>
    exact h.goto .waitOpen s.target rfl (by rw [hmain]; rfl) (by simp [hmain, ServerPc.phase])
      (by simp [ServerPc.phase]) fun hphase => absurd rfl hphase
  | rejected _ hauth =>
    simp only [ServerLabel.calm, hauth] at hcalm
    cases hcalm
  | openTimeout _ | idleTimeout _ | firstWriteErr _ | writeErr _ | sendFail _ => cases hcalm
  | recvFirst hmain =>
    obtain ⟨target, rfl⟩ := (hitem _ rfl).1 hmain
    exact h.move (.resolving target) (s.received ++ [openFrame target]) s.target s.lookups
      s.resolved s.dials rfl (by rw [hmain]; rfl) (by simp [hmain, ServerPc.phase])
      (by simp [ServerPc.phase]) fun _ => by simp
  | recvNext hmain =>
    -- the three items that are expected here differ in where the loop goes
    have hgo : ∀ (main : ServerPc) (fs : List ClientFrame), main.calm = true →
        main.started = true → main.phase = .connected →
        Calm { s with main := main, received := s.received ++ fs } := by
      intro main fs hcalm' hstarted hphase
      refine h.move main (s.received ++ fs) s.target s.lookups s.resolved s.dials hcalm'
        (by rw [hstarted, hmain]; rfl) (by simp [hmain, ServerPc.phase]) (by simp [hphase]) ?_
      intro _ hnil
      exact h.received_some (by simp [hmain, ServerPc.phase]) (List.append_eq_nil_iff.mp hnil).1
    rcases (hitem _ rfl).2 hmain with rfl | rfl | ⟨bs, rfl⟩
    · exact hgo (.shutting (some .clientClosed)) [] rfl rfl rfl
    · exact hgo (.shutting none) [halfCloseFrame] rfl rfl rfl
    · exact hgo (.writing bs) [dataFrame bs] rfl rfl rfl
  | @resolve target answer hmain =>
    simp only [ServerLabel.calm, hmain] at hcalm
    unfold ServerState.onResolve
    split
    · next addrs hres =>
      -- a target that resolves has an address to try
      obtain ⟨-, -, -, -, hne, -⟩ := resolveTarget_eq_ok.mp hres
      obtain ⟨addr, rest, rfl⟩ := List.exists_cons_of_ne_nil hne
      exact h.move (.connecting target (addr :: rest) none) s.received s.target _ _ s.dials rfl
        (by rw [hmain]; rfl) (by simp [hmain, ServerPc.phase]) (by simp [ServerPc.phase])
        fun _ => h.received_some (by simp [hmain, ServerPc.phase])
    · next herr =>
      rw [herr] at hcalm
      cases hcalm
  | @dial target addr rest lastErr outcome hmain =>
    cases outcome with
    | failed _ => cases hcalm
    | timedOut => cases hcalm
    | connected peer =>
      simp only [ServerLabel.calm] at hcalm
      cases hpeer : checkPeer config peer with
      | error err =>
        rw [hpeer] at hcalm
        cases hcalm
      | ok u =>
        simp only [ServerState.onDial, hpeer]
        exact h.move (.writingFirst target.firstPayload) s.received _ s.lookups s.resolved _ rfl
          (by rw [hmain]; rfl) (by simp [hmain, ServerPc.phase]) (by simp [ServerPc.phase])
          fun _ => h.received_some (by simp [hmain, ServerPc.phase])
  -- a calm dial never leaves the list empty
  | exhausted hmain =>
    rw [hmain] at hplace
    cases hplace
  | firstWrite hmain _ _ | write hmain _ _ | firstWriteDone hmain | writeDone hmain
  | shutdown hmain =>
    exact h.goto _ _ rfl (by rw [hmain]; rfl) (by simp [hmain, ServerPc.phase])
      (by simp [ServerPc.phase]) (by simp [hmain, ServerPc.phase])
  | @shutdownOut why hmain =>
    rw [hmain] at hplace
    obtain rfl : why = .clientClosed := by simpa [ServerPc.calm] using hplace
    exact h.finish hinv hmain
  | send hout =>
    unfold outgoing at hout
    split at hout
    · next hmain =>
      obtain rfl := Option.some.inj hout
      -- the task was idle, so the `OpenResult` is the first frame of all
      have hunsent := h.sent_eq
      rw [hmain] at hunsent
      have hidle := hinv.not_spawned (by rw [hmain]; rfl) (by simp [hmain, ServerPc.phase])
      have hnone := (hinv.task.not_spawned hidle).1
      simp only [ServerState.afterSend, hmain]
      exact
        { task := h.task.spawn
          place := rfl
          sent_eq := by
            show s.sent ++ [openResultFrame true ""] = openResultFrame true "" :: s.task.sent
            rw [hunsent, hnone]
            rfl
          spawned := fun _ hpc => by cases hpc
          received_some := fun _ => h.received_some (by simp [hmain, ServerPc.phase])
          over_written := fun hpc => by cases hpc
          not_aborted := fun _ => h.not_aborted (by simp [hmain, ServerPc.phase]) }
    · next hmain =>
      rw [hmain] at hplace
      cases hplace
    · next hmain =>
      rw [hmain] at hplace
      cases hplace
    · cases hout
  | @task l t ht =>
    -- a task that takes a step was spawned, so the relay has begun
    have hstarted : s.main.started = true := by
      by_contra hnot
      obtain ⟨hloop, hover⟩ := ServerPc.not_started hplace (by simpa using hnot)
      exact (ReadTask.step_spawned ht).1 (hinv.not_spawned hloop hover)
    exact
      { task := h.task.step hinv.task hcalm ht
        place := hplace
        sent_eq := by
          have hsent := h.sent_eq
          rw [if_pos hstarted] at hsent
          show s.sent ++ l.frames = if s.main.started then openResultFrame true "" :: t.sent else []
          rw [if_pos hstarted, hsent, ReadTask.step_sent ht]
          rfl
        spawned := fun _ => (ReadTask.step_spawned ht).2
        received_some := h.received_some
        over_written := h.over_written
        not_aborted := fun hover => by
          show t.abortRequested = false
          rw [ReadTask.step_abort ht]
          exact h.not_aborted hover }

/-- The last places of the main loop are entered at the end of the client's
    stream. -/
theorem Calm.step_ending (h : Calm s) {l : ServerLabel}
    (hcalm : l.calm config metadata s = true) (hitem : ∀ item, l = .recv item → s.Expects item)
    (hs : s.step config metadata l = some s') (hend : s'.main.ending = true) :
    s.main.ending = true ∨ l = .recv none := by
  have hplace := h.place
  cases step_iff.mp hs with
  | openTimeout _ | idleTimeout _ | firstWriteErr _ | writeErr _ | sendFail _ => cases hcalm
  | authenticated _ _ | rejected _ _ | firstWrite _ _ _ | write _ _ _ | firstWriteDone _
  | writeDone _ | shutdown _ => cases hend
  | recvFirst hmain =>
    obtain ⟨target, rfl⟩ := (hitem _ rfl).1 hmain
    cases hend
  | recvNext hmain =>
    rcases (hitem _ rfl).2 hmain with rfl | rfl | ⟨bs, rfl⟩
    -- the end of the client's stream is the one cause that is not a failure
    · exact .inr rfl
    · cases hend
    · cases hend
  | resolve hmain =>
    simp only [ServerLabel.calm, hmain] at hcalm
    unfold ServerState.onResolve at hend
    split at hend
    · cases hend
    · next herr =>
      rw [herr] at hcalm
      cases hcalm
  | @dial target addr rest lastErr outcome hmain =>
    cases outcome with
    | failed _ => cases hcalm
    | timedOut => cases hcalm
    | connected peer =>
      simp only [ServerLabel.calm] at hcalm
      cases hpeer : checkPeer config peer with
      | error err =>
        rw [hpeer] at hcalm
        cases hcalm
      | ok u =>
        simp only [ServerState.onDial, hpeer] at hend
        cases hend
  | exhausted hmain =>
    rw [hmain] at hplace
    cases hplace
  | shutdownOut hmain => exact .inl (by rw [hmain]; rfl)
  | send hout =>
    unfold ServerState.afterSend at hend
    split at hend
    · cases hend
    · cases hend
    · next hmain => exact .inl (by rw [show s.main = _ from hmain]; rfl)
    · exact .inl hend
  | task _ => exact .inl hend

/-- A server that returned and whose task is through takes no step. -/
theorem step_stuck {why : ServerExit} (hmain : s.main = .returned why)
    (htask : s.task.pc = .idle ∨ s.task.pc = .finished) (l : ServerLabel) :
    s.step config metadata l = none := by
  cases l with
  | task l => simp [ServerState.step, ReadTask.step_stuck htask]
  | _ => simp [ServerState.step, hmain, outgoing]

end ServerState

end EchProxy
