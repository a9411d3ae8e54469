import EchProxy.Tunnel.Server

/-! # The Invariant of the Server Side

    Whatever the client sends: what is written to the target is a prefix of
    the connection bytes received, all of them while the loop runs, up to the
    bytes in hand.  What the target delivers leaves the server only through
    the reading task, and success is reported only with a target.
-/

namespace EchProxy

open Server

/-! ## Phases of the main loop -/

/-- How far the main loop is. -/
inductive ServerPhase where
  /-- No `Open` yet. -/
  | waiting
  /-- From `Open` to the connect. -/
  | dialing
  /-- From the connect to the end of the loop. -/
  | connected
  /-- On the way out. -/
  | over
  deriving DecidableEq

def ServerPc.phase : ServerPc → ServerPhase
  | .idle | .rejected _ | .waitOpen => .waiting
  | .resolving _ | .connecting .. => .dialing
  | .writingFirst _ | .openOk | .relaying | .writing _ | .shutting _ | .pong _ => .connected
  | .closing _ | .returned _ => .over

/-- In the relay loop: the reading task exists. -/
def ServerPc.looping : ServerPc → Bool
  | .relaying | .writing _ | .shutting _ | .pong _ => true
  | _ => false

/-- The received bytes that still have to be written. -/
def ServerPc.pending : ServerPc → Bytes
  | .resolving target | .connecting target _ _ => target.firstPayload
  | .writingFirst rest | .writing rest => rest
  | _ => []

namespace ServerState

/-! ## What the server sends and writes -/

/-- The bytes written to the target, if there is one. -/
def targetWritten (s : ServerState) : Bytes :=
  s.target.elim [] Target.written

/-- The connection bytes in the frames received. -/
def receivedBytes (s : ServerState) : Bytes :=
  s.received.flatMap ClientFrame.bytes

/-- What holds wherever the main loop is. -/
structure Safe (targetInput : Bytes) (s : ServerState) : Prop where
  task : ReadTask.Inv serverKit targetInput s.task
  /-- The target's byte stream comes from the reading task alone. -/
  stream : s.sent.filter ServerFrame.isStream = s.task.sent.filter ServerFrame.isStream
  /-- Success is reported only with a target. -/
  open_ok : ∀ error, openResultFrame true error ∈ s.sent → s.target ≠ none
  /-- Nothing is written that was not received, or out of order. -/
  written_prefix : s.targetWritten <+: s.receivedBytes

/-- The invariant of the server side. -/
structure Inv (targetInput : Bytes) (s : ServerState) : Prop extends Safe targetInput s where
  not_spawned : s.main.looping = false → s.main.phase ≠ .over → s.task.pc = .idle
  nothing_received : s.main.phase = .waiting → s.received = []
  no_target : s.main.phase = .waiting ∨ s.main.phase = .dialing → s.target = none
  has_target : s.main.phase = .connected → s.target ≠ none
  /-- Up to the way out, all that was received is written or in hand. -/
  written_eq : s.main.phase ≠ .over → s.targetWritten ++ s.main.pending = s.receivedBytes

section invariant
variable {config : ServerConfig} {metadata : MetadataMap} {targetInput : Bytes}
  {s s' : ServerState}

theorem inv_fresh (targetInput : Bytes) : Inv targetInput (fresh targetInput) where
  task := ReadTask.inv_fresh _ _
  stream := rfl
  open_ok := fun _ h => absurd h List.not_mem_nil
  written_prefix := List.prefix_rfl
  not_spawned := fun _ _ => rfl
  nothing_received := fun _ => rfl
  no_target := fun _ => rfl
  has_target := fun h => by cases h
  written_eq := fun _ => rfl

/-- Once the loop is over only the pc-independent part has to hold. -/
theorem Safe.over (h : Safe targetInput s) (hover : s.main.phase = .over) :
    Inv targetInput s where
  toSafe := h
  not_spawned := fun _ hne => absurd hover hne
  nothing_received := fun hpc => by rw [hover] at hpc; cases hpc
  no_target := fun hpc => by rw [hover] at hpc; rcases hpc with hpc | hpc <;> cases hpc
  has_target := fun hpc => by rw [hover] at hpc; cases hpc
  written_eq := fun hne => absurd hover hne

theorem Safe.finish (h : Safe targetInput s) (why : ServerExit) :
    Inv targetInput (s.finish why) := by
  have hsafe : Safe targetInput (s.finish why) :=
    { task := h.task.abort
      stream := by simpa [ServerState.finish] using h.stream
      open_ok := h.open_ok
      written_prefix := h.written_prefix }
  exact hsafe.over rfl

/-- On the way out nothing more has to hold. -/
theorem Safe.leave (h : Safe targetInput s) (text : IpText) (why : ServerExit) :
    Inv targetInput (s.leave text why) := by
  unfold ServerState.leave
  cases why.frame text with
  | some _ =>
    have hsafe : Safe targetInput { s with main := .closing why } :=
      ⟨h.task, h.stream, h.open_ok, h.written_prefix⟩
    exact hsafe.over rfl
  | none => exact h.finish why

/-- Frames may come in and the histories of the open phase may grow. -/
theorem Safe.receive (h : Safe targetInput s) (fs : List ClientFrame) (main : ServerPc)
    (lookups : List Lookup) (resolved : Option (List SocketAddr))
    (dials : List (SocketAddr × DialOutcome)) :
    Safe targetInput
      { s with
        main := main
        received := s.received ++ fs
        lookups := lookups
        resolved := resolved
        dials := dials } where
  task := h.task
  stream := h.stream
  open_ok := h.open_ok
  written_prefix := by
    refine h.written_prefix.trans ?_
    show _ <+: (s.received ++ fs).flatMap ClientFrame.bytes
    rw [List.flatMap_append]
    exact List.prefix_append _ _

/-- The main loop moves on, before the relay loop or within it, possibly
    taking frames `fs`; the target, the task and the queue are untouched. -/
theorem Inv.move (h : Inv targetInput s) (main : ServerPc) (fs : List ClientFrame)
    (lookups : List Lookup) (resolved : Option (List SocketAddr))
    (dials : List (SocketAddr × DialOutcome))
    (hloop : main.looping = s.main.looping) (hphase : s.main.phase ≠ .over)
    (hwaiting : main.phase = .waiting → s.main.phase = .waiting ∧ fs = [])
    (hdialing : main.phase = .dialing → s.main.phase = .waiting ∨ s.main.phase = .dialing)
    (hconnected : main.phase = .connected → s.main.phase = .connected)
    (hpending : main.pending = s.main.pending ++ fs.flatMap ClientFrame.bytes) :
    Inv targetInput
      { s with
        main := main
        received := s.received ++ fs
        lookups := lookups
        resolved := resolved
        dials := dials } where
  toSafe := h.toSafe.receive fs main lookups resolved dials
  not_spawned := fun hnot _ => h.not_spawned (hloop ▸ hnot) hphase
  nothing_received := fun hpc => by
    obtain ⟨hwait, rfl⟩ := hwaiting hpc
    simp [h.nothing_received hwait]
  no_target := fun hpc => by
    rcases hpc with hpc | hpc
    · exact h.no_target (.inl (hwaiting hpc).1)
    · exact h.no_target (hdialing hpc)
  has_target := fun hpc => h.has_target (hconnected hpc)
  written_eq := fun _ => by
    have heq := h.written_eq hphase
    show s.targetWritten ++ main.pending = (s.received ++ fs).flatMap ClientFrame.bytes
    rw [List.flatMap_append, hpending, ← List.append_assoc, heq]
    rfl

/-- The first item keeps the invariant, whatever it is. -/
theorem Inv.onFirst (h : Inv targetInput s) (hmain : s.main = .waitOpen) (text : IpText)
    (item : StreamItem ClientFrame) : Inv targetInput ((s.note item).onFirst text item) := by
  have hnote : Safe targetInput (s.note item) :=
    h.toSafe.receive item.frames s.main s.lookups s.resolved s.dials
  rcases item with _ | (status | frame)
  · exact hnote.leave text .closedBeforeOpen
  · exact hnote.leave text (.openStreamError status)
  · obtain ⟨payload⟩ := frame
    rcases payload with _ | (target | bytes | _ | reason | millis)
    · exact hnote.leave text .notOpen
    · -- `Open` is the only frame that lets the loop go on
      refine h.move (.resolving target) [openFrame target] s.lookups s.resolved s.dials
        ?_ ?_ ?_ ?_ ?_ ?_
      · rw [hmain]; rfl
      · simp [hmain, ServerPc.phase]
      · intro hpc; cases hpc
      · intro _; exact .inl (by rw [hmain]; rfl)
      · intro hpc; cases hpc
      · rw [hmain]
        simp [ServerPc.pending, ClientFrame.bytes, openFrame]
    · exact hnote.leave text .notOpen
    · exact hnote.leave text .notOpen
    · exact hnote.leave text .notOpen
    · exact hnote.leave text .notOpen

/-- So does every later item. -/
theorem Inv.onNext (h : Inv targetInput s) (hmain : s.main = .relaying) (text : IpText)
    (item : StreamItem ClientFrame) : Inv targetInput ((s.note item).onNext text item) := by
  have hnote : Safe targetInput (s.note item) :=
    h.toSafe.receive item.frames s.main s.lookups s.resolved s.dials
  -- what stays in the loop has in hand what it took
  have hgo : ∀ (main : ServerPc), main.looping = true → main.phase = .connected →
      main.pending = item.frames.flatMap ClientFrame.bytes →
      Inv targetInput { s.note item with main := main } := by
    intro main hloop hconn hpending
    refine h.move main item.frames s.lookups s.resolved s.dials ?_ ?_ ?_ ?_ ?_ ?_
    · rw [hloop, hmain]; rfl
    · simp [hmain, ServerPc.phase]
    · simp [hconn]
    · simp [hconn]
    · intro _; rw [hmain]; rfl
    · rw [hpending, hmain]
      rfl
  rcases item with _ | (status | frame)
  · exact hgo _ rfl rfl rfl
  · exact hgo _ rfl rfl rfl
  · obtain ⟨payload⟩ := frame
    rcases payload with _ | (target | bytes | _ | reason | millis)
    · exact hnote.leave text .emptyFrame
    · exact hnote.leave text .unexpectedOpen
    · exact hgo _ rfl rfl (List.append_nil bytes).symm
    · exact hgo _ rfl rfl rfl
    · exact hgo _ rfl rfl rfl
    · exact hgo _ rfl rfl rfl

/-- The answer of the resolver keeps the invariant. -/
theorem Inv.onResolve (h : Inv targetInput s) {target : Open} (hmain : s.main = .resolving target)
    (answer : Except String (List SocketAddr)) :
    Inv targetInput (s.onResolve config target answer) := by
  unfold ServerState.onResolve
  cases config.policy.resolveTarget config.text (fun _ _ => answer) target.targetHost
      target.targetPort with
  | error err =>
    have hsafe := h.toSafe.receive [] s.main (s.lookups ++ resolverCall config target answer)
      s.resolved s.dials
    rw [List.append_nil] at hsafe
    exact hsafe.leave config.text _
  | ok addrs =>
    have hmove := h.move (.connecting target addrs none) []
      (s.lookups ++ resolverCall config target answer) (some addrs) s.dials
      (by rw [hmain]; rfl) (by simp [hmain, ServerPc.phase]) (fun hpc => by cases hpc)
      (fun _ => .inr (by rw [hmain]; rfl)) (fun hpc => by cases hpc)
      (by rw [hmain]; simp [ServerPc.pending])
    rw [List.append_nil] at hmove
    exact hmove

/-- A connect that comes back keeps the invariant. -/
theorem Inv.onDial (h : Inv targetInput s) {target : Open} {addr : SocketAddr}
    {rest : List SocketAddr} {lastErr : Option String}
    (hmain : s.main = .connecting target (addr :: rest) lastErr) (outcome : DialOutcome) :
    Inv targetInput (s.onDial config target addr rest outcome) := by
  have hnone : s.target = none := h.no_target (.inr (by rw [hmain]; rfl))
  have hnext : ∀ err, Inv targetInput
      { s.dialed addr outcome with main := .connecting target rest err } := by
    intro err
    have hmove := h.move (.connecting target rest err) [] s.lookups s.resolved
      (s.dials ++ [(addr, outcome)]) (by rw [hmain]; rfl) (by simp [hmain, ServerPc.phase])
      (fun hpc => by cases hpc) (fun _ => .inr (by rw [hmain]; rfl)) (fun hpc => by cases hpc)
      (by rw [hmain]; simp [ServerPc.pending])
    rw [List.append_nil] at hmove
    exact hmove
  cases outcome with
  | failed err => exact hnext _
  | timedOut => exact hnext _
  | connected peer =>
    have hsafe : Safe targetInput (s.dialed addr (.connected peer)) := by
      have hreceive := h.toSafe.receive [] s.main s.lookups s.resolved
        (s.dials ++ [(addr, .connected peer)])
      rwa [List.append_nil] at hreceive
    cases hpeer : checkPeer config peer with
    | error err =>
      simp only [ServerState.onDial, hpeer]
      exact hsafe.leave config.text _
    | ok u =>
      simp only [ServerState.onDial, hpeer]
      -- nothing was written yet, so the first payload is all that was received
      have heq : target.firstPayload = s.receivedBytes := by
        have hpending := h.written_eq (by simp [hmain, ServerPc.phase])
        rwa [hmain, targetWritten, hnone] at hpending
      exact
        { task := h.task
          stream := h.stream
          open_ok := fun error hmem => absurd hnone (h.open_ok error hmem)
          written_prefix := List.nil_prefix
          not_spawned := fun _ _ => h.not_spawned (by rw [hmain]; rfl)
            (by simp [hmain, ServerPc.phase])
          nothing_received := fun hpc => by cases hpc
          no_target := fun hpc => by rcases hpc with hpc | hpc <;> cases hpc
          has_target := fun _ => Option.some_ne_none _
          written_eq := fun _ => heq }

/-- Writing to the target keeps the invariant: bytes go from in hand to
    written. -/
theorem Inv.write (h : Inv targetInput s) {rest : Bytes} {n : Nat} (main : ServerPc)
    (hconnected : s.main.phase = .connected) (hpending : s.main.pending = rest)
    (hphase : main.phase = .connected) (hloop : main.looping = s.main.looping)
    (hrest : main.pending = rest.drop n) :
    Inv targetInput { s.write rest n with main := main } := by
  obtain ⟨t, ht⟩ := Option.ne_none_iff_exists'.mp (h.has_target hconnected)
  have hover : s.main.phase ≠ .over := by simp [hconnected]
  have hwritten : t.written ++ rest = s.receivedBytes := by
    have heq := h.written_eq hover
    rwa [hpending, targetWritten, ht] at heq
  -- what is written moves from in hand to written
  have hsplit : t.written ++ rest.take n ++ rest.drop n = s.receivedBytes := by
    rw [List.append_assoc, List.take_append_drop, hwritten]
  have hnew : (s.write rest n).targetWritten = t.written ++ rest.take n := by
    simp [ServerState.write, targetWritten, ht]
  exact
    { task := h.task
      stream := h.stream
      open_ok := fun error hmem => by
        have hne := h.open_ok error hmem
        simpa [ServerState.write] using hne
      written_prefix := by
        show (s.write rest n).targetWritten <+: _
        rw [hnew]
        exact ⟨rest.drop n, hsplit⟩
      not_spawned := fun hnot _ => h.not_spawned (hloop ▸ hnot) hover
      nothing_received := fun hpc => by
        rw [hphase] at hpc
        cases hpc
      no_target := fun hpc => by
        rw [hphase] at hpc
        rcases hpc with hpc | hpc <;> cases hpc
      has_target := fun _ => by simp [ServerState.write, ht]
      written_eq := fun _ => by
        show (s.write rest n).targetWritten ++ main.pending = _
        rw [hnew, hrest]
        exact hsplit }

/-- A frame of the main loop is not part of the target's byte stream, and it
    reports success only from `openOk`. -/
theorem outgoing_spec {text : IpText} {frame : ServerFrame}
    (hout : s.outgoing text = some frame) :
    frame.isStream = false ∧ frame.bytes = [] ∧
      (s.main = .openOk ∧ frame = openResultFrame true "" ∨
        ∀ error, frame ≠ openResultFrame true error) := by
  unfold outgoing at hout
  split at hout
  · next hmain =>
    obtain rfl := Option.some.inj hout
    exact ⟨rfl, rfl, .inl ⟨hmain, rfl⟩⟩
  · obtain rfl := Option.some.inj hout
    exact ⟨rfl, rfl, .inr fun error heq => by cases heq⟩
  · next why _ =>
    have hreset : ∀ reason, serverReset reason = frame → frame.isStream = false ∧
        frame.bytes = [] ∧ (s.main = .openOk ∧ frame = openResultFrame true "" ∨
          ∀ error, frame ≠ openResultFrame true error) := by
      rintro reason rfl
      exact ⟨rfl, rfl, .inr fun error heq => by cases heq⟩
    have hrefuse : ∀ reason, openResultFrame false reason = frame → frame.isStream = false ∧
        frame.bytes = [] ∧ (s.main = .openOk ∧ frame = openResultFrame true "" ∨
          ∀ error, frame ≠ openResultFrame true error) := by
      rintro reason rfl
      exact ⟨rfl, rfl, .inr fun error heq => by cases heq⟩
    -- a way out sends a reset, a refusal or nothing
    cases why <;>
      first
        | exact hreset _ (Option.some.inj hout)
        | exact hrefuse _ (Option.some.inj hout)
        | cases hout
  · cases hout

/-- The main loop goes on after a send. -/
theorem Inv.afterSend (h : Inv targetInput s) : Inv targetInput s.afterSend := by
  unfold ServerState.afterSend
  split
  · next hmain =>
    -- the loop begins, and with it the task
    have hconnected : s.main.phase = .connected := by rw [hmain]; rfl
    have hidle := h.not_spawned (by rw [hmain]; rfl) (by simp [hconnected])
    have hwritten := h.written_eq (by simp [hconnected])
    rw [hmain] at hwritten
    exact
      { task := h.task.spawn hidle
        stream := h.stream
        open_ok := h.open_ok
        written_prefix := h.written_prefix
        not_spawned := fun hloop => by cases hloop
        nothing_received := fun hpc => by cases hpc
        no_target := fun hpc => by rcases hpc with hpc | hpc <;> cases hpc
        has_target := fun _ => h.has_target hconnected
        written_eq := fun _ => hwritten }
  · next hmain =>
    have hmove := h.move .relaying [] s.lookups s.resolved s.dials (by rw [hmain]; rfl)
      (by simp [hmain, ServerPc.phase]) (fun hpc => by cases hpc) (fun hpc => by cases hpc)
      (fun _ => by rw [hmain]; rfl) (by rw [hmain]; rfl)
    rw [List.append_nil] at hmove
    exact hmove
  · next why _ => exact h.toSafe.finish why
  · exact h

/-- Noting a frame the queue took from the main loop. -/
theorem Inv.noteSent (h : Inv targetInput s) {frame : ServerFrame}
    (hstream : frame.isStream = false)
    (hok : ∀ error, frame = openResultFrame true error → s.target ≠ none) :
    Inv targetInput { s with sent := s.sent ++ [frame] } where
  task := h.task
  stream := by simpa [List.filter_append, hstream] using h.stream
  open_ok := fun error hmem => by
    rcases List.mem_append.mp hmem with hmem | hmem
    · exact h.open_ok error hmem
    · exact hok error (List.mem_singleton.mp hmem).symm
  written_prefix := h.written_prefix
  not_spawned := h.not_spawned
  nothing_received := h.nothing_received
  no_target := h.no_target
  has_target := h.has_target
  written_eq := h.written_eq

/-- Shutting the write side down writes nothing. -/
theorem shutTarget_written (s : ServerState) : s.shutTarget.targetWritten = s.targetWritten := by
  rw [targetWritten, targetWritten, ServerState.shutTarget]
  cases s.target <;> rfl

theorem shutTarget_eq_none (s : ServerState) : s.shutTarget.target = none ↔ s.target = none := by
  rw [ServerState.shutTarget, Option.map_eq_none_iff]

theorem Inv.shutdown (h : Inv targetInput s) : Inv targetInput s.shutTarget where
  task := h.task
  stream := h.stream
  open_ok := fun error hmem hnone => h.open_ok error hmem ((shutTarget_eq_none s).mp hnone)
  written_prefix := by
    rw [shutTarget_written]
    exact h.written_prefix
  not_spawned := h.not_spawned
  nothing_received := h.nothing_received
  no_target := fun hpc => (shutTarget_eq_none s).mpr (h.no_target hpc)
  has_target := fun hpc hnone => h.has_target hpc ((shutTarget_eq_none s).mp hnone)
  written_eq := fun hover => by
    rw [shutTarget_written]
    exact h.written_eq hover

/-- A step of the reading task keeps the invariant. -/
theorem Inv.taskStep (h : Inv targetInput s) {l : TaskLabel ServerFrame}
    {t : ReadTask ServerFrame} (ht : s.task.step serverKit l = some t) :
    Inv targetInput { s with task := t, sent := s.sent ++ l.frames } where
  task := h.task.step ht
  stream := by
    show (s.sent ++ l.frames).filter _ = t.sent.filter _
    rw [ReadTask.step_sent ht, List.filter_append, List.filter_append, h.stream]
  open_ok := fun error hmem => by
    rcases List.mem_append.mp hmem with hmem | hmem
    · exact h.open_ok error hmem
    · -- the task sends no `OpenResult`
      obtain ⟨last, hpc⟩ := ReadTask.step_frames ht hmem
      rcases h.task.in_hand _ _ hpc with ⟨-, bs, hbs⟩ | ⟨-, hhalf, -⟩ | ⟨-, reason, hreason⟩
      · cases hbs
      · cases hhalf
      · cases hreason
  written_prefix := h.written_prefix
  not_spawned := fun hloop hover =>
    absurd (h.not_spawned hloop hover) (ReadTask.step_spawned ht).1
  nothing_received := h.nothing_received
  no_target := h.no_target
  has_target := h.has_target
  written_eq := h.written_eq

/-- The main loop moves on, and nothing else happens. -/
theorem Inv.moveMain (h : Inv targetInput s) (main : ServerPc) (hloop : main.looping = s.main.looping)
    (hphase : main.phase = s.main.phase) (hover : s.main.phase ≠ .over)
    (hpending : main.pending = s.main.pending) : Inv targetInput { s with main := main } := by
  have hmove := h.move main [] s.lookups s.resolved s.dials hloop hover
    (fun hpc => ⟨hphase ▸ hpc, rfl⟩) (fun hpc => .inr (hphase ▸ hpc)) (fun hpc => hphase ▸ hpc)
    (by rw [hpending]; simp)
  rw [List.append_nil] at hmove
  exact hmove

/-- **Every step of the server side keeps the invariant.** -/
theorem Inv.step {l : ServerLabel} (h : Inv targetInput s)
    (hs : s.step config metadata l = some s') : Inv targetInput s' := by
  cases step_iff.mp hs with
  | authenticated hmain _ | rejected hmain _ =>
    exact h.moveMain _ (by rw [hmain]; rfl) (by rw [hmain]; rfl) (by simp [hmain, ServerPc.phase])
      (by rw [hmain]; rfl)
  | recvFirst hmain => exact h.onFirst hmain _ _
  | recvNext hmain => exact h.onNext hmain _ _
  | openTimeout _ | idleTimeout _ | exhausted _ | firstWriteErr _ | writeErr _ =>
    exact h.toSafe.leave _ _
  | resolve hmain => exact h.onResolve hmain _
  | dial hmain => exact h.onDial hmain _
  | firstWrite hmain _ _ | write hmain _ _ =>
    exact h.write _ (by rw [hmain]; rfl) (by rw [hmain]; rfl) rfl (by rw [hmain]; rfl) rfl
  | firstWriteDone hmain | writeDone hmain =>
    exact h.moveMain _ (by rw [hmain]; rfl) (by rw [hmain]; rfl) (by simp [hmain, ServerPc.phase])
      (by rw [hmain]; rfl)
  | shutdown hmain =>
    have hsame : s.shutTarget.main = .shutting none := hmain
    exact h.shutdown.moveMain .relaying (by rw [hsame]; rfl) (by rw [hsame]; rfl)
      (by simp [hsame, ServerPc.phase]) (by rw [hsame]; rfl)
  | shutdownOut _ => exact h.shutdown.toSafe.leave _ _
  | send hout =>
    obtain ⟨hstream, -, hok⟩ := outgoing_spec hout
    have hsent := h.noteSent hstream fun error heq => by
      -- a success is reported with a target at hand only
      rcases hok with ⟨hmain, -⟩ | hno
      · exact h.has_target (by rw [hmain]; rfl)
      · exact absurd heq (hno error)
    exact hsent.afterSend
  | sendFail _ => exact h.afterSend
  | task ht => exact h.taskStep ht

/-! ## What a step leaves alone -/

theorem leave_phase (s : ServerState) (text : IpText) (why : ServerExit) :
    (s.leave text why).main.phase = .over := by
  unfold leave
  split <;> rfl

/-- On the way out the main loop moves, and the task may be aborted. -/
theorem leave_eq (s : ServerState) (text : IpText) (why : ServerExit) :
    ∃ main task, s.leave text why = { s with main := main, task := task } ∧
      (task = s.task ∨ task = s.task.abort) := by
  unfold ServerState.leave
  split
  · exact ⟨_, _, rfl, .inl rfl⟩
  · exact ⟨_, _, rfl, .inr rfl⟩

theorem onFirst_eq (s : ServerState) (text : IpText) (item : StreamItem ClientFrame) :
    ∃ main task, s.onFirst text item = { s with main := main, task := task } ∧
      (task = s.task ∨ task = s.task.abort) := by
  unfold ServerState.onFirst
  split
  · exact leave_eq s text _
  · exact leave_eq s text _
  · split
    · exact ⟨_, _, rfl, .inl rfl⟩
    · exact leave_eq s text _

theorem onNext_eq (s : ServerState) (text : IpText) (item : StreamItem ClientFrame) :
    ∃ main task, s.onNext text item = { s with main := main, task := task } ∧
      (task = s.task ∨ task = s.task.abort) := by
  unfold ServerState.onNext
  split
  · exact ⟨_, _, rfl, .inl rfl⟩
  · exact ⟨_, _, rfl, .inl rfl⟩
  · split
    · exact ⟨_, _, rfl, .inl rfl⟩
    · exact ⟨_, _, rfl, .inl rfl⟩
    · exact ⟨_, _, rfl, .inl rfl⟩
    · exact ⟨_, _, rfl, .inl rfl⟩
    · exact leave_eq s text _
    · exact leave_eq s text _

/-- After the tunnel is open the task is spawned. -/
theorem afterSend_eq (s : ServerState) :
    ∃ main task, s.afterSend = { s with main := main, task := task } ∧
      (task = s.task ∨ task = s.task.abort ∨ (s.main = .openOk ∧ task = s.task.spawn)) := by
  unfold ServerState.afterSend
  split
  · next hmain => exact ⟨_, _, rfl, .inr (.inr ⟨hmain, rfl⟩)⟩
  · exact ⟨_, _, rfl, .inl rfl⟩
  · exact ⟨_, _, rfl, .inr (.inl rfl)⟩
  · exact ⟨_, _, rfl, .inl rfl⟩

theorem onResolve_eq (s : ServerState) (config : ServerConfig) (target : Open)
    (answer : Except String (List SocketAddr)) :
    ∃ main task lookups resolved, s.onResolve config target answer =
        { s with main := main, task := task, lookups := lookups, resolved := resolved } ∧
      (task = s.task ∨ task = s.task.abort) := by
  unfold ServerState.onResolve
  split
  · exact ⟨_, _, _, _, rfl, .inl rfl⟩
  · obtain ⟨main, task, heq, htask⟩ := leave_eq
      { s with lookups := s.lookups ++ resolverCall config target answer } config.text (.refused _)
    exact ⟨main, task, _, _, heq, htask⟩

/-- A connect may bring a target, to which nothing is written yet. -/
theorem onDial_eq (s : ServerState) (config : ServerConfig) (target : Open) (addr : SocketAddr)
    (rest : List SocketAddr) (outcome : DialOutcome) :
    ∃ main task reached dials, s.onDial config target addr rest outcome =
        { s with main := main, task := task, target := reached, dials := dials } ∧
      (task = s.task ∨ task = s.task.abort) := by
  unfold ServerState.onDial
  split
  · split
    · exact ⟨_, _, _, _, rfl, .inl rfl⟩
    · obtain ⟨main, task, heq, htask⟩ := leave_eq (s.dialed addr (.connected _)) config.text
        (.refused _)
      exact ⟨main, task, _, _, heq, htask⟩
  · exact ⟨_, _, _, _, rfl, .inl rfl⟩
  · exact ⟨_, _, _, _, rfl, .inl rfl⟩

/-- What a step does to the task, to the histories and to what is written. -/
structure Effect (s : ServerState) (l : ServerLabel) (s' : ServerState) : Prop where
  sent : s'.sent = s.sent ++ l.frames
  received : s'.received = s.received ++ l.item.elim [] StreamItem.frames
  /-- A connect that comes back brings a new target. -/
  written : (∃ target addr rest lastErr, s.main = .connecting target (addr :: rest) lastErr) ∨
    s.targetWritten <+: s'.targetWritten
  /-- A step of its own, or the main loop spawns or aborts it, or leaves it alone. -/
  task : (∃ tl, l = .task tl ∧ s.task.step serverKit tl = some s'.task) ∨
    s'.task = s.task ∨ s'.task = s.task.abort ∨ (s.main = .openOk ∧ s'.task = s.task.spawn)

/-- A step that only moves the main loop and may abort the task. -/
theorem Effect.quiet {l : ServerLabel} (hsent : s'.sent = s.sent ++ l.frames)
    (hreceived : s'.received = s.received ++ l.item.elim [] StreamItem.frames)
    (hwritten : s.targetWritten <+: s'.targetWritten)
    (htask : s'.task = s.task ∨ s'.task = s.task.abort) : Effect s l s' := by
  refine ⟨hsent, hreceived, .inr hwritten, ?_⟩
  rcases htask with hsame | habort
  · exact .inr (.inl hsame)
  · exact .inr (.inr (.inl habort))

theorem write_grows (s : ServerState) (rest : Bytes) (n : Nat) :
    s.targetWritten <+: (s.write rest n).targetWritten := by
  rw [targetWritten, targetWritten, ServerState.write]
  cases s.target with
  | none => exact List.prefix_rfl
  | some t => exact List.prefix_append _ _

theorem step_effect {l : ServerLabel} (hs : s.step config metadata l = some s') :
    Effect s l s' := by
  have hnone : ∀ {α : Type} (xs : List α), xs = xs ++ [] := fun xs => (List.append_nil xs).symm
  cases step_iff.mp hs with
  | authenticated _ _ | rejected _ _ | firstWriteDone _ | writeDone _ =>
    exact .quiet (hnone _) (hnone _) List.prefix_rfl (.inl rfl)
  | @recvFirst item _ =>
    obtain ⟨main, task, heq, htask⟩ := onFirst_eq (s.note item) config.text item
    rw [heq]
    exact .quiet (hnone _) rfl List.prefix_rfl htask
  | @recvNext item _ =>
    obtain ⟨main, task, heq, htask⟩ := onNext_eq (s.note item) config.text item
    rw [heq]
    exact .quiet (hnone _) rfl List.prefix_rfl htask
  | openTimeout _ | idleTimeout _ | exhausted _ | firstWriteErr _ | writeErr _ =>
    obtain ⟨main, task, heq, htask⟩ := leave_eq s config.text _
    rw [heq]
    exact .quiet (hnone _) (hnone _) List.prefix_rfl htask
  | @resolve target answer _ =>
    obtain ⟨main, task, lookups, resolved, heq, htask⟩ := onResolve_eq s config target answer
    rw [heq]
    exact .quiet (hnone _) (hnone _) List.prefix_rfl htask
  | @dial target addr rest lastErr outcome hmain =>
    obtain ⟨main, task, reached, dials, heq, htask⟩ := onDial_eq s config target addr rest outcome
    rw [heq]
    -- only a connect gives the state a target
    refine ⟨hnone _, hnone _, .inl ⟨target, addr, rest, lastErr, hmain⟩, ?_⟩
    rcases htask with hsame | habort
    · exact .inr (.inl hsame)
    · exact .inr (.inr (.inl habort))
  | @firstWrite rest n _ _ _ | @write rest n _ _ _ =>
    exact .quiet (hnone _) (hnone _) (write_grows s rest n) (.inl rfl)
  | shutdown _ =>
    refine .quiet (hnone _) (hnone _) ?_ (.inl rfl)
    show s.targetWritten <+: s.shutTarget.targetWritten
    rw [shutTarget_written]
  | @shutdownOut why _ =>
    obtain ⟨main, task, heq, htask⟩ := leave_eq s.shutTarget config.text why
    rw [heq]
    refine .quiet (hnone _) (hnone _) ?_ htask
    show s.targetWritten <+: s.shutTarget.targetWritten
    rw [shutTarget_written]
  | @send frame _ =>
    obtain ⟨main, task, heq, htask⟩ := afterSend_eq { s with sent := s.sent ++ [frame] }
    rw [heq]
    exact ⟨rfl, hnone _, .inr List.prefix_rfl, .inr htask⟩
  | sendFail _ =>
    obtain ⟨main, task, heq, htask⟩ := afterSend_eq s
    rw [heq]
    exact ⟨hnone _, hnone _, .inr List.prefix_rfl, .inr htask⟩
  | task ht => exact ⟨rfl, hnone _, .inr List.prefix_rfl, .inl ⟨_, rfl, ht⟩⟩

/-- What was read and written stays so; the invariant is used where the
    target comes into being. -/
theorem Inv.step_grows (h : Inv targetInput s) {l : ServerLabel}
    (hs : s.step config metadata l = some s') :
    s.task.read <+: s'.task.read ∧ s.targetWritten <+: s'.targetWritten := by
  have heffect := step_effect hs
  constructor
  · rcases heffect.task with ⟨tl, -, ht⟩ | heq | heq | ⟨-, heq⟩
    · exact ReadTask.step_read ht
    · rw [heq]
    · rw [heq, ReadTask.abort_read]
    · rw [heq]
      exact List.prefix_rfl
  · rcases heffect.written with ⟨target, addr, rest, lastErr, hmain⟩ | hgrows
    · rw [targetWritten, h.no_target (.inr (by rw [hmain]; rfl))]
      exact List.nil_prefix
    · exact hgrows

/-- The half-close is the last frame of the task, whose frames are all of the stream. -/
theorem Inv.half_close_last (h : Inv targetInput s) {before after : List ServerFrame}
    (hsplit : s.sent = before ++ serverHalfClose :: after) :
    ∀ bytes, serverData bytes ∉ after := by
  intro bytes hmem
  have hfilter := congrArg (List.filter ServerFrame.isStream) hsplit
  rw [h.stream, List.filter_append, List.filter_cons_of_pos rfl] at hfilter
  have hnil := h.task.half_close_last_filter hfilter
  have hin : serverData bytes ∈ after.filter ServerFrame.isStream :=
    List.mem_filter.mpr ⟨hmem, rfl⟩
  rw [hnil] at hin
  cases hin

end invariant

end ServerState

end EchProxy
