import EchProxy.Framework.Lts
import EchProxy.Tunnel.ReadTask

/-! # The Client Relay (`relay_grpc` in `client/src/tunnel.rs`)

    The main loop of the client side of a tunnel, with the reading task it
    spawns.  A step is one `await` of the loop coming back; the label says
    how it came back.  What the queue and the gRPC stream do is not decided
    here: frames are handed over by `send` labels and come in by `recv`
    labels.
-/

namespace EchProxy

/-- The ways `relay_grpc` returns an error. -/
inductive RelayError where
  /-- `MetadataValue::try_from` rejected the token. -/
  | invalidToken
  /-- A gRPC status, from the call or from the stream. -/
  | status (message : String)
  | openReset (reason : String)
  | unexpectedFirstFrame
  | closedBeforeOpenResult
  | openRefused (error : String)
  | localWrite (err : String)
  | localShutdown (err : String)
  | reset (reason : String)
  | duplicateOpenResult
  | emptyFrame
  deriving DecidableEq

/-- The error texts. -/
def RelayError.message : RelayError → String
  | .invalidToken => "failed to parse metadata value"
  | .status message => message
  | .openReset reason => s!"backend reset tunnel before open: {reason}"
  | .unexpectedFirstFrame => "backend sent unexpected first frame"
  | .closedBeforeOpenResult => "backend closed tunnel before OpenResult"
  | .openRefused error => s!"backend failed to open target: {error}"
  | .localWrite err => err
  | .localShutdown err => err
  | .reset reason => s!"backend reset tunnel: {reason}"
  | .duplicateOpenResult => "backend sent duplicate OpenResult"
  | .emptyFrame => "backend sent empty frame"

/-- Where `relay_grpc` is. -/
inductive ClientPc where
  /-- Before `tx.send(open_frame(..)).await`. -/
  | start
  /-- Before `MetadataValue::try_from` reads the token. -/
  | preparing
  /-- At `client.tunnel(request).await`. -/
  | calling
  /-- At `inbound.message().await`. -/
  | awaitOpen
  /-- At `inbound.next().await`. -/
  | relaying
  /-- At `local_writer.write_all(&data).await`, with this much left. -/
  | writing (rest : Bytes)
  /-- At `local_writer.shutdown().await`. -/
  | shutting
  /-- Returned, with an error or without. -/
  | returned (err : Option RelayError)
  deriving DecidableEq

/-- The frames of `local_to_grpc`. -/
def clientKit : FrameKit ClientFrame where
  data := dataFrame
  halfClose := halfCloseFrame
  reset := fun err => resetFrame s!"local read failed: {err}"
  bytes := ClientFrame.bytes
  bytes_data := fun _ => rfl
  bytes_halfClose := rfl
  bytes_reset := fun _ => rfl
  halfClose_ne_data := fun _ h => by cases h
  halfClose_ne_reset := fun _ h => by cases h
  reset_ne_data := fun _ _ h => by cases h

/-- A client relay. -/
structure ClientState where
  main : ClientPc
  /-- `local_to_grpc`. -/
  task : ReadTask ClientFrame
  /-- The write side of the local socket was shut down. -/
  localShut : Bool
  /-- History: the bytes written to the local socket. -/
  localWritten : Bytes
  /-- History: the frames taken from the gRPC stream. -/
  received : List ServerFrame
  /-- History: the frames the outbound queue accepted. -/
  sent : List ClientFrame

/-- What can happen to a client relay. -/
inductive ClientLabel where
  /-- `Open` enters the outbound queue. -/
  | sendOpen
  /-- The token makes a metadata value; the request goes to gRPC. -/
  | tokenOk
  | badToken
  | callOk
  | callErr (status : String)
  /-- `inbound` yields an item. -/
  | recv (item : StreamItem ServerFrame)
  /-- A write to the local socket takes `n` bytes. -/
  | localWrite (n : Nat)
  | localWriteDone
  | localWriteErr (err : String)
  | localShutdownOk
  | localShutdownErr (err : String)
  /-- A step of `local_to_grpc`. -/
  | task (l : TaskLabel ClientFrame)

/-- The frames a step hands to the outbound queue. -/
def ClientLabel.frames (target : Open) : ClientLabel → List ClientFrame
  | .sendOpen => [openFrame target]
  | .task l => l.frames
  | _ => []

/-- The item a step takes from the gRPC stream, if it takes one. -/
def ClientLabel.item : ClientLabel → Option (StreamItem ServerFrame)
  | .recv item => some item
  | _ => none

namespace ClientState

/-- Before `relay_grpc` runs, over a local socket that will deliver
    `localInput`. -/
def fresh (localInput : Bytes) : ClientState where
  main := .start
  task := .fresh localInput
  localShut := false
  localWritten := []
  received := []
  sent := []

/-- A return through `?` or `bail!`: the handle of the task is dropped, the
    task is not aborted. -/
def fail (s : ClientState) (err : RelayError) : ClientState :=
  { s with main := .returned (some err) }

/-- The end of the function: `local_to_grpc.abort(); Ok(())`. -/
def finish (s : ClientState) : ClientState :=
  { s with main := .returned none, task := s.task.abort }

/-- The match on `inbound.message().await?`, up to the spawn. -/
def onFirst (s : ClientState) : StreamItem ServerFrame → ClientState
  | none => s.fail .closedBeforeOpenResult
  | some (.error status) => s.fail (.status status)
  | some (.ok frame) =>
    match frame.payload with
    | some (.openResult result) =>
      if result.ok then { s with main := .relaying, task := s.task.spawn }
      else s.fail (.openRefused result.error)
    | some (.reset reason) => s.fail (.openReset reason)
    | _ => s.fail .unexpectedFirstFrame

/-- One turn of the `while let` loop over `inbound.next().await`. -/
def onNext (s : ClientState) : StreamItem ServerFrame → ClientState
  -- the loop is over without an error, and the local side is not shut down
  | none => s.finish
  | some (.error status) => s.fail (.status status)
  | some (.ok frame) =>
    match frame.payload with
    | some (.data bytes) => { s with main := .writing bytes }
    | some .halfClose => { s with main := .shutting }
    | some (.reset reason) => s.fail (.reset reason)
    -- a pong is dropped
    | some (.pong _) => s
    | some (.openResult _) => s.fail .duplicateOpenResult
    | none => s.fail .emptyFrame

/-- Notes an item in the history. -/
def note (s : ClientState) (item : StreamItem ServerFrame) : ClientState :=
  { s with received := s.received ++ item.frames }

/-- One step of the client relay; `target` is what it asks the server to
    open. -/
def step (target : Open) (s : ClientState) : ClientLabel → Option ClientState
  | .sendOpen =>
    -- the queue is fresh and has room, so `Open` is the first frame in it
    if s.main = .start then
      some { s with main := .preparing, sent := s.sent ++ [openFrame target] }
    else none
  | .tokenOk => if s.main = .preparing then some { s with main := .calling } else none
  -- `MetadataValue::try_from` refuses the token: the request is never sent
  | .badToken => if s.main = .preparing then some (s.fail .invalidToken) else none
  | .callOk => if s.main = .calling then some { s with main := .awaitOpen } else none
  | .callErr status => if s.main = .calling then some (s.fail (.status status)) else none
  | .recv item =>
    match s.main with
    | .awaitOpen => some ((s.note item).onFirst item)
    | .relaying => some ((s.note item).onNext item)
    | _ => none
  | .localWrite n =>
    match s.main with
    | .writing rest =>
      if 0 < n ∧ n ≤ rest.length then
        some
          { s with
            main := .writing (rest.drop n)
            localWritten := s.localWritten ++ rest.take n }
      else none
    | _ => none
  | .localWriteDone => if s.main = .writing [] then some { s with main := .relaying } else none
  -- `write_all` of nothing does not write, so it cannot fail
  | .localWriteErr err =>
    match s.main with
    | .writing (_ :: _) => some (s.fail (.localWrite err))
    | _ => none
  | .localShutdownOk =>
    -- `break`, and then the end of the function
    if s.main = .shutting then some { s.finish with localShut := true } else none
  | .localShutdownErr err =>
    if s.main = .shutting then some (s.fail (.localShutdown err)) else none
  | .task l =>
    (s.task.step clientKit l).map fun t => { s with task := t, sent := s.sent ++ l.frames }

/-- The client relay on its own: the queue and the server are free. -/
def system (target : Open) (localInput : Bytes) : Lts.System ClientState ClientLabel where
  init := fun s => s = fresh localInput
  step := step target

/-! ## The rules of the loop -/

/-- What a step needs, and what it leaves: one rule a branch of `step`. -/
inductive Step (target : Open) (s : ClientState) : ClientLabel → ClientState → Prop where
  | sendOpen (hmain : s.main = .start) :
      Step target s .sendOpen { s with main := .preparing, sent := s.sent ++ [openFrame target] }
  | tokenOk (hmain : s.main = .preparing) : Step target s .tokenOk { s with main := .calling }
  | badToken (hmain : s.main = .preparing) : Step target s .badToken (s.fail .invalidToken)
  | callOk (hmain : s.main = .calling) : Step target s .callOk { s with main := .awaitOpen }
  | callErr {status : String} (hmain : s.main = .calling) :
      Step target s (.callErr status) (s.fail (.status status))
  | recvFirst {item : StreamItem ServerFrame} (hmain : s.main = .awaitOpen) :
      Step target s (.recv item) ((s.note item).onFirst item)
  | recvNext {item : StreamItem ServerFrame} (hmain : s.main = .relaying) :
      Step target s (.recv item) ((s.note item).onNext item)
  | localWrite {rest : Bytes} {n : Nat} (hmain : s.main = .writing rest) (hpos : 0 < n)
      (hfits : n ≤ rest.length) :
      Step target s (.localWrite n)
        { s with
          main := .writing (rest.drop n)
          localWritten := s.localWritten ++ rest.take n }
  | localWriteDone (hmain : s.main = .writing []) :
      Step target s .localWriteDone { s with main := .relaying }
  | localWriteErr {b : UInt8} {rest : Bytes} {err : String} (hmain : s.main = .writing (b :: rest)) :
      Step target s (.localWriteErr err) (s.fail (.localWrite err))
  | localShutdownOk (hmain : s.main = .shutting) :
      Step target s .localShutdownOk { s.finish with localShut := true }
  | localShutdownErr {err : String} (hmain : s.main = .shutting) :
      Step target s (.localShutdownErr err) (s.fail (.localShutdown err))
  | task {l : TaskLabel ClientFrame} {t : ReadTask ClientFrame}
      (ht : s.task.step clientKit l = some t) :
      Step target s (.task l) { s with task := t, sent := s.sent ++ l.frames }

/-- **`step` follows the rules, and nothing else.** -/
theorem step_iff {target : Open} {s s' : ClientState} {l : ClientLabel} :
    s.step target l = some s' ↔ Step target s l s' := by
  constructor
  · intro hs
    cases l with
    | recv item =>
      simp only [step] at hs
      split at hs
      · next hmain => exact Option.some.inj hs ▸ .recvFirst hmain
      · next hmain => exact Option.some.inj hs ▸ .recvNext hmain
      · cases hs
    | localWrite n =>
      simp only [step] at hs
      split at hs
      · next rest hmain =>
        simp only [Option.ite_none_right_eq_some, Option.some.injEq] at hs
        obtain ⟨⟨hpos, hfits⟩, rfl⟩ := hs
        exact .localWrite hmain hpos hfits
      · cases hs
    | localWriteErr err =>
      simp only [step] at hs
      split at hs
      · next hmain => exact Option.some.inj hs ▸ .localWriteErr hmain
      · cases hs
    | task l =>
      simp only [step, Option.map_eq_some_iff] at hs
      obtain ⟨t, ht, rfl⟩ := hs
      exact .task ht
    | sendOpen | tokenOk | badToken | callOk | callErr _ | localWriteDone | localShutdownOk
    | localShutdownErr _ =>
      simp only [step, Option.ite_none_right_eq_some, Option.some.injEq] at hs
      obtain ⟨hmain, rfl⟩ := hs
      constructor
      exact hmain
  · intro h
    cases h with
    | localWrite hmain hpos hfits => simp [step, hmain, hpos, hfits]
    | task ht => simp [step, ht]
    | _ hmain => simp [step, hmain]

end ClientState

/-! ## What the client sends and writes -/

/-- The tunnel is not open yet: the reading task does not exist. -/
def ClientPc.opening : ClientPc → Bool
  | .start | .preparing | .calling | .awaitOpen => true
  | _ => false

/-- The bytes `write_all` still has to write. -/
def ClientPc.pending : ClientPc → Bytes
  | .writing rest => rest
  | _ => []

namespace ClientState

/-- The connection bytes in the frames received. -/
def receivedBytes (s : ClientState) : Bytes :=
  s.received.flatMap ServerFrame.bytes

/-- The invariant of the client relay. -/
structure Inv (target : Open) (localInput : Bytes) (s : ClientState) : Prop where
  task : ReadTask.Inv clientKit localInput s.task
  /-- `Open` is sent first, everything after it comes from the task. -/
  sent_eq : s.sent = if s.main = .start then [] else openFrame target :: s.task.sent
  /-- The task runs only once the tunnel is open, and nothing was received
      before. -/
  not_spawned : s.main.opening = true → s.task.pc = .idle ∧ s.received = []
  /-- Nothing is written that was not received, or out of order. -/
  written_prefix : s.localWritten <+: s.receivedBytes
  /-- Unless the relay fails, all that was received is written or in hand. -/
  written_eq : (∀ err, s.main ≠ .returned (some err)) →
    s.localWritten ++ s.main.pending = s.receivedBytes

section invariant
variable {target : Open} {localInput : Bytes} {s s' : ClientState}

theorem inv_fresh (target : Open) (localInput : Bytes) :
    Inv target localInput (fresh localInput) where
  task := ReadTask.inv_fresh _ _
  sent_eq := rfl
  not_spawned := fun _ => ⟨rfl, rfl⟩
  written_prefix := List.prefix_rfl
  written_eq := fun _ => rfl

/-- The loop takes an item with the frames `fs` when nothing is left to write,
    and goes on with the bytes of `fs` in hand, or fails. -/
theorem Inv.take (h : Inv target localInput s) (hstart : s.main ≠ .start)
    (hready : s.main.pending = []) (hlive : ∀ err, s.main ≠ .returned (some err))
    (main : ClientPc) (fs : List ServerFrame) (shut : Bool) {task : ReadTask ClientFrame}
    (htask : ReadTask.Inv clientKit localInput task) (hsent : task.sent = s.task.sent)
    (hopen : main.opening = false)
    (hhand : (∀ err, main ≠ .returned (some err)) → main.pending = fs.flatMap ServerFrame.bytes) :
    Inv target localInput
      { s with main := main, task := task, localShut := shut, received := s.received ++ fs } := by
  -- nothing is in hand, so all that was received is written
  have hall : s.localWritten = s.receivedBytes := by
    have heq := h.written_eq hlive
    rwa [hready, List.append_nil] at heq
  have hne : main ≠ .start := by
    rintro rfl
    cases hopen
  refine ⟨htask, ?_, ?_, ?_, ?_⟩
  · show s.sent = _
    rw [h.sent_eq, if_neg hstart, if_neg hne, hsent]
  · intro hopening
    rw [hopen] at hopening
    cases hopening
  · show s.localWritten <+: (s.received ++ fs).flatMap ServerFrame.bytes
    rw [List.flatMap_append, hall]
    exact List.prefix_append _ _
  · intro hgo
    show s.localWritten ++ main.pending = (s.received ++ fs).flatMap ServerFrame.bytes
    rw [List.flatMap_append, hall, hhand hgo]
    rfl

/-- A failure keeps the invariant. -/
theorem Inv.fail (h : Inv target localInput s) (hstart : s.main ≠ .start) (err : RelayError) :
    Inv target localInput (s.fail err) where
  task := h.task
  sent_eq := by
    show s.sent = _
    rw [h.sent_eq, if_neg hstart]
    rfl
  not_spawned := fun hopen => by cases hopen
  written_prefix := h.written_prefix
  written_eq := fun hgo => absurd rfl (hgo err)

/-- The first item keeps the invariant, whatever it is. -/
theorem Inv.onFirst (h : Inv target localInput s) (hmain : s.main = .awaitOpen)
    (item : StreamItem ServerFrame) : Inv target localInput ((s.note item).onFirst item) := by
  have hidle := (h.not_spawned (by rw [hmain]; rfl)).1
  have hstart : s.main ≠ .start := by simp [hmain]
  have hready : s.main.pending = [] := by rw [hmain]; rfl
  have hlive : ∀ err, s.main ≠ .returned (some err) := by simp [hmain]
  have hfail : ∀ (fs : List ServerFrame) (err : RelayError), Inv target localInput
      { s with main := .returned (some err), received := s.received ++ fs } :=
    fun fs err => h.take hstart hready hlive _ fs _ h.task rfl rfl fun hgo => absurd rfl (hgo err)
  rcases item with _ | (status | frame)
  · exact hfail [] _
  · exact hfail [] _
  · obtain ⟨payload⟩ := frame
    rcases payload with _ | result | bytes | _ | reason | millis
    · exact hfail _ _
    · show Inv target localInput (if result.ok then _ else _)
      -- the only item that lets the relay go on
      by_cases hok : result.ok
      · rw [if_pos hok]
        exact h.take hstart hready hlive _ _ _ (h.task.spawn hidle) rfl rfl fun _ => rfl
      · rw [if_neg hok]
        exact hfail _ _
    · exact hfail _ _
    · exact hfail _ _
    · exact hfail _ _
    · exact hfail _ _

/-- So does every later item. -/
theorem Inv.onNext (h : Inv target localInput s) (hmain : s.main = .relaying)
    (item : StreamItem ServerFrame) : Inv target localInput ((s.note item).onNext item) := by
  have hstart : s.main ≠ .start := by simp [hmain]
  have hready : s.main.pending = [] := by rw [hmain]; rfl
  have hlive : ∀ err, s.main ≠ .returned (some err) := by simp [hmain]
  have hfail : ∀ (fs : List ServerFrame) (err : RelayError), Inv target localInput
      { s with main := .returned (some err), received := s.received ++ fs } :=
    fun fs err => h.take hstart hready hlive _ fs _ h.task rfl rfl fun hgo => absurd rfl (hgo err)
  rcases item with _ | (status | frame)
  -- the end of the stream is an end without an error
  · exact h.take hstart hready hlive _ [] _ h.task.abort s.task.abort_sent rfl fun _ => rfl
  · exact hfail [] _
  · obtain ⟨payload⟩ := frame
    rcases payload with _ | result | bytes | _ | reason | millis
    · exact hfail _ _
    · exact hfail _ _
    · refine h.take hstart hready hlive _ _ _ h.task rfl rfl fun _ => ?_
      exact (List.append_nil bytes).symm
    · exact h.take hstart hready hlive _ _ _ h.task rfl rfl fun _ => rfl
    · exact hfail _ _
    · exact h.take hstart hready hlive s.main [⟨some (.pong millis)⟩] s.localShut h.task rfl
        (by rw [hmain]; rfl) fun _ => hready

/-- **Every step of the client relay keeps the invariant.** -/
theorem Inv.step {l : ClientLabel} (h : Inv target localInput s)
    (hs : s.step target l = some s') : Inv target localInput s' := by
  cases step_iff.mp hs with
  | sendOpen hmain =>
    have hidle := h.not_spawned (by rw [hmain]; rfl)
    -- the task does not run yet, so `Open` is all that was sent
    have hunsent := (h.task.not_spawned hidle.1).1
    have hwritten := h.written_eq (by simp [hmain])
    rw [hmain] at hwritten
    exact
      { task := h.task
        sent_eq := by simp [h.sent_eq, hmain, hunsent]
        not_spawned := fun _ => hidle
        written_prefix := h.written_prefix
        written_eq := fun _ => hwritten }
  | tokenOk hmain | callOk hmain =>
    have hidle := h.not_spawned (by rw [hmain]; rfl)
    have hwritten := h.written_eq (by simp [hmain])
    rw [hmain] at hwritten
    exact
      { task := h.task
        sent_eq := by simp [h.sent_eq, hmain]
        not_spawned := fun _ => hidle
        written_prefix := h.written_prefix
        written_eq := fun _ => hwritten }
  | badToken hmain | callErr hmain => exact h.fail (by simp [hmain]) _
  | recvFirst hmain => exact h.onFirst hmain _
  | recvNext hmain => exact h.onNext hmain _
  | @localWrite rest n hmain =>
    -- what is written moves from in hand to written
    have hwritten : s.localWritten ++ rest = s.receivedBytes := by
      have heq := h.written_eq (by simp [hmain])
      rwa [hmain] at heq
    have hsplit : s.localWritten ++ rest.take n ++ rest.drop n = s.receivedBytes := by
      rw [List.append_assoc, List.take_append_drop, hwritten]
    exact
      { task := h.task
        sent_eq := by simp [h.sent_eq, hmain]
        not_spawned := fun hopen => by cases hopen
        written_prefix := ⟨rest.drop n, hsplit⟩
        written_eq := fun _ => hsplit }
  | localWriteDone hmain =>
    have hwritten := h.written_eq (by simp [hmain])
    rw [hmain] at hwritten
    exact
      { task := h.task
        sent_eq := by simp [h.sent_eq, hmain]
        not_spawned := fun hopen => by cases hopen
        written_prefix := h.written_prefix
        written_eq := fun _ => hwritten }
  | localWriteErr hmain => exact h.fail (by simp [hmain]) _
  | localShutdownOk hmain =>
    have hfinish := h.take (by simp [hmain]) (by rw [hmain]; rfl) (by simp [hmain])
      (.returned none) [] true h.task.abort s.task.abort_sent rfl fun _ => rfl
    rw [List.append_nil] at hfinish
    exact hfinish
  | localShutdownErr hmain => exact h.fail (by simp [hmain]) _
  | task ht =>
    -- the task runs, so the tunnel is open
    have hspawned := ReadTask.step_spawned ht
    have hopen : s.main.opening = false := by
      by_contra hopening
      exact hspawned.1 (h.not_spawned (by simpa using hopening)).1
    have hstart : s.main ≠ .start := by
      intro hmain
      rw [hmain] at hopen
      cases hopen
    exact
      { task := h.task.step ht
        sent_eq := by simp [h.sent_eq, hstart, ReadTask.step_sent ht]
        not_spawned := fun hopening => by rw [hopen] at hopening; cases hopening
        written_prefix := h.written_prefix
        written_eq := h.written_eq }

/-! ## What a step leaves alone -/

/-- An item moves the main loop, and may spawn or abort the task. -/
theorem onFirst_eq (s : ClientState) (item : StreamItem ServerFrame) :
    ∃ main task, s.onFirst item = { s with main := main, task := task } ∧
      (task = s.task ∨ task = s.task.spawn) := by
  unfold onFirst
  split
  · exact ⟨_, _, rfl, .inl rfl⟩
  · exact ⟨_, _, rfl, .inl rfl⟩
  · split
    · split
      · exact ⟨_, _, rfl, .inr rfl⟩
      · exact ⟨_, _, rfl, .inl rfl⟩
    · exact ⟨_, _, rfl, .inl rfl⟩
    · exact ⟨_, _, rfl, .inl rfl⟩

theorem onNext_eq (s : ClientState) (item : StreamItem ServerFrame) :
    ∃ main task, s.onNext item = { s with main := main, task := task } ∧
      (task = s.task ∨ task = s.task.abort) := by
  unfold onNext
  split
  · exact ⟨_, _, rfl, .inr rfl⟩
  · exact ⟨_, _, rfl, .inl rfl⟩
  · split <;> exact ⟨_, _, rfl, .inl rfl⟩

/-- What a step does to the task and to the histories. -/
structure Effect (target : Open) (s : ClientState) (l : ClientLabel) (s' : ClientState) : Prop where
  sent : s'.sent = s.sent ++ l.frames target
  received : s'.received = s.received ++ l.item.elim [] StreamItem.frames
  written : s.localWritten <+: s'.localWritten
  /-- A step of its own, or the main loop spawns or aborts it, or leaves it alone. -/
  task : (∃ tl, l = .task tl ∧ s.task.step clientKit tl = some s'.task) ∨
    s'.task = s.task ∨ s'.task = s.task.abort ∨
    (s.main = .awaitOpen ∧ s'.task = s.task.spawn)

theorem step_effect {l : ClientLabel} (hs : s.step target l = some s') : Effect target s l s' := by
  have hnone : ∀ {α : Type} (xs : List α), xs = xs ++ [] := fun xs => (List.append_nil xs).symm
  cases step_iff.mp hs with
  | recvFirst hmain =>
    obtain ⟨main, task, heq, htask⟩ := onFirst_eq (s.note _) _
    rw [heq]
    refine ⟨hnone _, rfl, List.prefix_rfl, ?_⟩
    -- the task is spawned by the answer that opens the tunnel
    rcases htask with hsame | hspawn
    · exact .inr (.inl hsame)
    · exact .inr (.inr (.inr ⟨hmain, hspawn⟩))
  | recvNext hmain =>
    obtain ⟨main, task, heq, htask⟩ := onNext_eq (s.note _) _
    rw [heq]
    refine ⟨hnone _, rfl, List.prefix_rfl, ?_⟩
    -- in the loop it may only be aborted
    rcases htask with hsame | habort
    · exact .inr (.inl hsame)
    · exact .inr (.inr (.inl habort))
  | sendOpen => exact ⟨rfl, hnone _, List.prefix_rfl, .inr (.inl rfl)⟩
  | localWrite => exact ⟨hnone _, hnone _, List.prefix_append _ _, .inr (.inl rfl)⟩
  | localShutdownOk => exact ⟨hnone _, hnone _, List.prefix_rfl, .inr (.inr (.inl rfl))⟩
  | task ht => exact ⟨rfl, hnone _, List.prefix_rfl, .inl ⟨_, rfl, ht⟩⟩
  | _ => exact ⟨hnone _, hnone _, List.prefix_rfl, .inr (.inl rfl)⟩

/-- What was read and written stays so. -/
theorem step_grows {l : ClientLabel} (hs : s.step target l = some s') :
    s.task.read <+: s'.task.read ∧ s.localWritten <+: s'.localWritten := by
  have heffect := step_effect hs
  refine ⟨?_, heffect.written⟩
  rcases heffect.task with ⟨tl, -, ht⟩ | heq | heq | ⟨-, heq⟩
  · exact ReadTask.step_read ht
  · rw [heq]
  · rw [heq, ReadTask.abort_read]
  · rw [heq]
    exact List.prefix_rfl

end invariant

end ClientState

end EchProxy
