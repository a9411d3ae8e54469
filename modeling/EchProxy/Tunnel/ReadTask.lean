import EchProxy.Tunnel.Frame
import Mathlib.Data.List.Infix

/-! # The Spawned Reading Task

    Both relays spawn a task that reads one socket and turns what it reads
    into frames: `local_to_grpc` in `client/src/tunnel.rs` and
    `target_to_grpc` in `server/src/service.rs`.  The two loops are the same;
    they differ in the frames they build, which are the parameter `FrameKit`.

    A step of the task is one `await` coming back.  `input` is what the
    socket will still deliver before its end of file; how it is cut into
    reads is up to the labels.
-/

namespace EchProxy

/-- The frames a reading task builds, and the connection bytes in them. -/
structure FrameKit (F : Type) where
  data : Bytes → F
  halfClose : F
  reset : String → F
  bytes : F → Bytes
  bytes_data : ∀ bs, bytes (data bs) = bs
  bytes_halfClose : bytes halfClose = []
  bytes_reset : ∀ reason, bytes (reset reason) = []
  halfClose_ne_data : ∀ bs, halfClose ≠ data bs
  halfClose_ne_reset : ∀ reason, halfClose ≠ reset reason
  reset_ne_data : ∀ reason bs, reset reason ≠ data bs

attribute [simp] FrameKit.bytes_data FrameKit.bytes_halfClose FrameKit.bytes_reset

/-- Where a reading task is. -/
inductive TaskPc (F : Type) where
  /-- Not spawned yet. -/
  | idle
  /-- At `reader.read(..).await`. -/
  | reading
  /-- At `tx.send(frame).await`; it returns after the last frame. -/
  | sending (frame : F) (last : Bool)
  /-- Returned, or dropped after an `abort`. -/
  | finished
  deriving DecidableEq

/-- A reading task. -/
structure ReadTask (F : Type) where
  pc : TaskPc F
  /-- `abort()` was called on its handle. -/
  abortRequested : Bool
  /-- What the socket still delivers before its end of file. -/
  input : Bytes
  /-- History: the bytes read so far. -/
  read : Bytes
  /-- History: a read returned zero. -/
  eof : Bool
  /-- History: the frames the queue accepted from this task. -/
  sent : List F

/-- What can happen to a reading task. -/
inductive TaskLabel (F : Type) where
  /-- A read returns some bytes. -/
  | read (bytes : Bytes)
  /-- A read returns zero: end of file. -/
  | eof
  /-- A read fails. -/
  | readErr (err : String)
  /-- The queue accepts the frame in hand. -/
  | send (frame : F) (last : Bool)
  /-- The queue is closed: `send` fails. -/
  | sendFail (frame : F) (last : Bool)
  /-- The abort takes effect at an `await`. -/
  | cancel

/-- The frames a label hands to the queue. -/
def TaskLabel.frames {F : Type} : TaskLabel F → List F
  | .send frame _ => [frame]
  | _ => []

namespace ReadTask

variable {F : Type}

/-- A task that was not spawned, over a socket that will deliver `input`. -/
def fresh (input : Bytes) : ReadTask F where
  pc := .idle
  abortRequested := false
  input := input
  read := []
  eof := false
  sent := []

/-- `tokio::spawn`. -/
def spawn (t : ReadTask F) : ReadTask F :=
  { t with pc := .reading }

/-- `JoinHandle::abort`; there is no handle before the spawn. -/
def abort (t : ReadTask F) : ReadTask F :=
  match t.pc with
  | .idle => t
  | _ => { t with abortRequested := true }

@[simp] theorem abort_sent (t : ReadTask F) : t.abort.sent = t.sent := by
  unfold abort
  split <;> rfl

@[simp] theorem abort_read (t : ReadTask F) : t.abort.read = t.read := by
  unfold abort
  split <;> rfl

@[simp] theorem abort_input (t : ReadTask F) : t.abort.input = t.input := by
  unfold abort
  split <;> rfl

@[simp] theorem abort_pc (t : ReadTask F) : t.abort.pc = t.pc := by
  unfold abort
  split <;> simp_all

/-- The frame the task holds. -/
def hand (t : ReadTask F) : List F :=
  match t.pc with
  | .sending frame _ => [frame]
  | _ => []

/-- One step of the loop. -/
def step [DecidableEq F] (kit : FrameKit F) (t : ReadTask F) :
    TaskLabel F → Option (ReadTask F)
  | .read bytes =>
    -- the buffer holds one chunk, so a read returns at most that
    if t.pc = .reading ∧ bytes ≠ [] ∧ bytes.length ≤ dataChunkSize ∧ bytes <+: t.input then
      some
        { t with
          pc := .sending (kit.data bytes) false
          input := t.input.drop bytes.length
          read := t.read ++ bytes }
    else none
  | .eof =>
    -- a read returns zero only when the socket is exhausted
    if t.pc = .reading ∧ t.input = [] then
      some { t with pc := .sending kit.halfClose true, eof := true }
    else none
  | .readErr err =>
    -- a read may fail at any point of the input
    if t.pc = .reading then some { t with pc := .sending (kit.reset err) true } else none
  | .send frame last =>
    if t.pc = .sending frame last then
      some { t with pc := if last then .finished else .reading, sent := t.sent ++ [frame] }
    else none
  | .sendFail frame last =>
    -- all three places return when the queue is gone
    if t.pc = .sending frame last then some { t with pc := .finished } else none
  | .cancel =>
    -- an abort lands at an `await` only, and the task has no other places
    if t.abortRequested = true ∧ t.pc ≠ .idle ∧ t.pc ≠ .finished then
      some { t with pc := .finished }
    else none

/-! ## The rules of the loop -/

/-- What a step needs, and what it leaves: one rule a branch of `step`. -/
inductive Step (kit : FrameKit F) (t : ReadTask F) : TaskLabel F → ReadTask F → Prop where
  | read {bytes : Bytes} (hpc : t.pc = .reading) (hne : bytes ≠ [])
      (hsize : bytes.length ≤ dataChunkSize) (hpre : bytes <+: t.input) :
      Step kit t (.read bytes)
        { t with
          pc := .sending (kit.data bytes) false
          input := t.input.drop bytes.length
          read := t.read ++ bytes }
  | eof (hpc : t.pc = .reading) (hinput : t.input = []) :
      Step kit t .eof { t with pc := .sending kit.halfClose true, eof := true }
  | readErr {err : String} (hpc : t.pc = .reading) :
      Step kit t (.readErr err) { t with pc := .sending (kit.reset err) true }
  | send {frame : F} {last : Bool} (hpc : t.pc = .sending frame last) :
      Step kit t (.send frame last)
        { t with pc := if last then .finished else .reading, sent := t.sent ++ [frame] }
  | sendFail {frame : F} {last : Bool} (hpc : t.pc = .sending frame last) :
      Step kit t (.sendFail frame last) { t with pc := .finished }
  | cancel (habort : t.abortRequested = true) (hidle : t.pc ≠ .idle)
      (hfinished : t.pc ≠ .finished) : Step kit t .cancel { t with pc := .finished }

/-- **`step` follows the rules, and nothing else.** -/
theorem step_iff [DecidableEq F] {kit : FrameKit F} {t t' : ReadTask F} {l : TaskLabel F} :
    t.step kit l = some t' ↔ Step kit t l t' := by
  constructor
  · intro hs
    cases l <;>
      simp only [step, Option.ite_none_right_eq_some, Option.some.injEq] at hs <;>
      obtain ⟨hguard, rfl⟩ := hs
    case read bytes =>
      obtain ⟨hpc, hne, hsize, hpre⟩ := hguard
      exact .read hpc hne hsize hpre
    case eof => exact .eof hguard.1 hguard.2
    case readErr err => exact .readErr hguard
    case send frame last => exact .send hguard
    case sendFail frame last => exact .sendFail hguard
    case cancel => exact .cancel hguard.1 hguard.2.1 hguard.2.2
  · intro hs
    cases hs with
    | read hpc hne hsize hpre => exact if_pos ⟨hpc, hne, hsize, hpre⟩
    | eof hpc hinput => exact if_pos ⟨hpc, hinput⟩
    | readErr hpc => exact if_pos hpc
    | send hpc => exact if_pos hpc
    | sendFail hpc => exact if_pos hpc
    | cancel habort hidle hfinished => exact if_pos ⟨habort, hidle, hfinished⟩

/-! ## What the task sends

    The bytes in the frames sent so far are a prefix of the bytes read, and
    all of them while the task runs, up to the frame in hand.  A half-close is
    sent only after the end of file, as the last frame, when nothing was lost.
-/

/-- The connection bytes in a list of frames. -/
def bytesOf (kit : FrameKit F) (frames : List F) : Bytes :=
  frames.flatMap kit.bytes

@[simp] theorem bytesOf_nil (kit : FrameKit F) : bytesOf kit [] = [] := rfl

@[simp] theorem bytesOf_append (kit : FrameKit F) (fs gs : List F) :
    bytesOf kit (fs ++ gs) = bytesOf kit fs ++ bytesOf kit gs :=
  List.flatMap_append

@[simp] theorem bytesOf_singleton (kit : FrameKit F) (f : F) : bytesOf kit [f] = kit.bytes f := by
  simp [bytesOf]

/-- The invariant of the reading loop over a socket that delivers `script`. -/
structure Inv (kit : FrameKit F) (script : Bytes) (t : ReadTask F) : Prop where
  /-- Reading consumes the script. -/
  script_split : t.read ++ t.input = script
  /-- Nothing is sent that was not read, or out of order. -/
  sent_prefix : bytesOf kit t.sent <+: t.read
  /-- While the task runs nothing is lost. -/
  held : t.pc ≠ .finished → bytesOf kit (t.sent ++ t.hand) = t.read
  /-- While the task runs it has sent data only. -/
  data_only : t.pc ≠ .finished → ∀ f ∈ t.sent, ∃ bs, f = kit.data bs
  /-- All frames but the last are data. -/
  data_before : ∀ f ∈ t.sent.dropLast, ∃ bs, f = kit.data bs
  /-- The frame in hand is data, or ends the loop. -/
  in_hand : ∀ f last, t.pc = .sending f last →
    (last = false ∧ ∃ bs, f = kit.data bs) ∨
      (last = true ∧ f = kit.halfClose ∧ t.eof = true) ∨
      (last = true ∧ ∃ reason, f = kit.reset reason)
  /-- End of file is the end of the script. -/
  eof_input : t.eof = true → t.input = []
  /-- A half-close says that everything was read and sent. -/
  half_close : kit.halfClose ∈ t.sent → t.eof = true ∧ bytesOf kit t.sent = t.read
  /-- Before the spawn nothing happened. -/
  not_spawned : t.pc = .idle → t.sent = [] ∧ t.read = [] ∧ t.eof = false

section invariant
variable {kit : FrameKit F} {script : Bytes} {t t' : ReadTask F}

theorem inv_fresh (kit : FrameKit F) (script : Bytes) : Inv kit script (fresh script) where
  script_split := rfl
  sent_prefix := List.prefix_rfl
  held := fun _ => rfl
  data_only := fun _ _ h => absurd h List.not_mem_nil
  data_before := fun _ h => absurd h List.not_mem_nil
  in_hand := fun _ _ h => by cases h
  eof_input := fun h => by cases h
  half_close := fun h => absurd h List.not_mem_nil
  not_spawned := fun _ => ⟨rfl, rfl, rfl⟩

/-- Spawning an idle task keeps the invariant. -/
theorem Inv.spawn (h : Inv kit script t) (hidle : t.pc = .idle) : Inv kit script t.spawn := by
  obtain ⟨hsent, hread, heof⟩ := h.not_spawned hidle
  exact
    { script_split := h.script_split
      sent_prefix := h.sent_prefix
      held := fun _ => by simp [ReadTask.spawn, hand, hsent, hread]
      data_only := fun _ => by simp [ReadTask.spawn, hsent]
      data_before := h.data_before
      in_hand := fun _ _ hpc => by cases hpc
      eof_input := h.eof_input
      half_close := h.half_close
      not_spawned := fun hpc => by cases hpc }

theorem Inv.abort (h : Inv kit script t) : Inv kit script t.abort := by
  unfold ReadTask.abort
  split
  · exact h
  · exact ⟨h.script_split, h.sent_prefix, h.held, h.data_only, h.data_before, h.in_hand,
      h.eof_input, h.half_close, h.not_spawned⟩

/-- A task that stops, whatever frame it drops, keeps the invariant. -/
theorem Inv.stop (h : Inv kit script t) : Inv kit script { t with pc := .finished } where
  script_split := h.script_split
  sent_prefix := h.sent_prefix
  held := fun hpc => absurd rfl hpc
  data_only := fun hpc => absurd rfl hpc
  data_before := h.data_before
  in_hand := fun _ _ hpc => by cases hpc
  eof_input := h.eof_input
  half_close := h.half_close
  not_spawned := fun hpc => by cases hpc

/-- **The reading loop keeps its invariant.** -/
theorem Inv.step [DecidableEq F] {l : TaskLabel F} (h : Inv kit script t)
    (hs : t.step kit l = some t') : Inv kit script t' := by
  cases step_iff.mp hs with
  | @read bytes hpc _ _ hpre =>
    have hheld := h.held (by simp [hpc])
    simp only [hand, hpc, List.append_nil] at hheld
    -- what is read moves from the input to the frame in hand
    obtain ⟨rest, hrest⟩ := hpre
    exact
      { script_split := by simp [← h.script_split, ← hrest]
        sent_prefix := h.sent_prefix.trans (List.prefix_append _ _)
        held := fun _ => by simp [hand, hheld]
        data_only := fun _ => h.data_only (by simp [hpc])
        data_before := h.data_before
        in_hand := fun f last hpc' => by
          obtain ⟨rfl, rfl⟩ := TaskPc.sending.inj hpc'
          exact .inl ⟨rfl, bytes, rfl⟩
        eof_input := fun heof => by simp [h.eof_input heof]
        half_close := fun hmem => by
          -- a running task has sent data only, so there is no half-close yet
          obtain ⟨bs, hbs⟩ := h.data_only (by simp [hpc]) _ hmem
          exact absurd hbs (kit.halfClose_ne_data bs)
        not_spawned := fun hpc' => by cases hpc' }
  | eof hpc hinput =>
    have hheld := h.held (by simp [hpc])
    simp only [hand, hpc, List.append_nil] at hheld
    exact
      { script_split := h.script_split
        sent_prefix := h.sent_prefix
        held := fun _ => by simp [hand, hheld]
        data_only := fun _ => h.data_only (by simp [hpc])
        data_before := h.data_before
        in_hand := fun f last hpc' => by
          obtain ⟨rfl, rfl⟩ := TaskPc.sending.inj hpc'
          exact .inr (.inl ⟨rfl, rfl, rfl⟩)
        eof_input := fun _ => hinput
        half_close := fun _ => ⟨rfl, hheld⟩
        not_spawned := fun hpc' => by cases hpc' }
  | @readErr err hpc =>
    have hheld := h.held (by simp [hpc])
    simp only [hand, hpc, List.append_nil] at hheld
    exact
      { script_split := h.script_split
        sent_prefix := h.sent_prefix
        held := fun _ => by simp [hand, hheld]
        data_only := fun _ => h.data_only (by simp [hpc])
        data_before := h.data_before
        in_hand := fun f last hpc' => by
          obtain ⟨rfl, rfl⟩ := TaskPc.sending.inj hpc'
          exact .inr (.inr ⟨rfl, err, rfl⟩)
        eof_input := h.eof_input
        half_close := h.half_close
        not_spawned := fun hpc' => by cases hpc' }
  -- the three fields left are by whether this frame ends the loop
  | @send frame last hpc =>
    have hheld := h.held (by simp [hpc])
    simp only [hand, hpc] at hheld
    have hdata := h.data_only (by simp [hpc])
    refine
      { script_split := h.script_split
        sent_prefix := by rw [hheld]
        held := fun hpc' => ?_
        data_only := fun hpc' => ?_
        data_before := by simpa using hdata
        in_hand := fun f last' hpc' => by cases last <;> cases hpc'
        eof_input := h.eof_input
        half_close := fun hmem => ?_
        not_spawned := fun hpc' => by cases last <;> cases hpc' }
    · cases last with
      | true => exact absurd rfl hpc'
      | false => simpa [hand] using hheld
    · cases last with
      | true => exact absurd rfl hpc'
      | false =>
        intro f hf
        rcases List.mem_append.mp hf with hf | hf
        · exact hdata f hf
        · obtain rfl := List.mem_singleton.mp hf
          rcases h.in_hand _ _ hpc with ⟨-, hbs⟩ | ⟨hlast, -⟩ | ⟨hlast, -⟩
          · exact hbs
          · cases hlast
          · cases hlast
    -- the half-close is the frame just sent, as the others are data
    · refine ⟨?_, hheld⟩
      rcases List.mem_append.mp hmem with hmem | hmem
      · obtain ⟨bs, hbs⟩ := hdata _ hmem
        exact absurd hbs (kit.halfClose_ne_data bs)
      · have heq := List.mem_singleton.mp hmem
        rcases h.in_hand _ _ hpc with ⟨-, bs, hbs⟩ | ⟨-, -, heof⟩ | ⟨-, reason, hreason⟩
        · exact absurd (heq.trans hbs) (kit.halfClose_ne_data bs)
        · exact heof
        · exact absurd (heq.trans hreason) (kit.halfClose_ne_reset reason)
  | @sendFail frame last _ =>
    exact h.stop
  | cancel _ _ _ =>
    exact h.stop

/-- At the end of file the whole script was read. -/
theorem Inv.read_all (h : Inv kit script t) (heof : t.eof = true) : t.read = script := by
  have hsplit := h.script_split
  rwa [h.eof_input heof, List.append_nil] at hsplit

/-- A half-close is the last frame the task sends. -/
theorem Inv.half_close_last (h : Inv kit script t) {l₁ l₂ : List F}
    (hsent : t.sent = l₁ ++ kit.halfClose :: l₂) : l₂ = [] := by
  by_contra hne
  have hmem : kit.halfClose ∈ t.sent.dropLast := by
    rw [hsent, List.dropLast_append_of_ne_nil (List.cons_ne_nil _ _),
      List.dropLast_cons_of_ne_nil hne]
    simp
  obtain ⟨bs, hbs⟩ := h.data_before _ hmem
  exact kit.halfClose_ne_data bs hbs

/-- The same when some of the other frames are left out. -/
theorem Inv.half_close_last_filter (h : Inv kit script t) {p : F → Bool} {l₁ l₂ : List F}
    (hsent : t.sent.filter p = l₁ ++ kit.halfClose :: l₂) : l₂ = [] := by
  have hmem : kit.halfClose ∈ t.sent.filter p := by
    rw [hsent]
    simp
  obtain ⟨hin, hp⟩ := List.mem_filter.mp hmem
  obtain ⟨before, after, hsplit⟩ := List.append_of_mem hin
  obtain rfl := h.half_close_last hsplit
  have hnot : kit.halfClose ∉ before.filter p := by
    intro hbefore
    have hdrop : kit.halfClose ∈ t.sent.dropLast := by
      rw [hsplit, List.dropLast_concat]
      exact (List.mem_filter.mp hbefore).1
    obtain ⟨bs, hbs⟩ := h.data_before _ hdrop
    exact kit.halfClose_ne_data bs hbs
  rw [hsplit, List.filter_append, List.filter_cons_of_pos hp, List.filter_nil] at hsent
  exact ((List.append_cons_inj_of_notMem hnot List.not_mem_nil).mp hsent).2.2.symm

/-- What a step does to the history: only `send` adds to it. -/
theorem step_sent [DecidableEq F] {l : TaskLabel F} (hs : t.step kit l = some t') :
    t'.sent = t.sent ++ l.frames := by
  cases step_iff.mp hs with
  | send _ => rfl
  | read _ _ _ _ | eof _ _ | readErr _ | sendFail _ | cancel _ _ _ =>
    exact (List.append_nil t.sent).symm

/-- What was read stays read. -/
theorem step_read [DecidableEq F] {l : TaskLabel F} (hs : t.step kit l = some t') :
    t.read <+: t'.read := by
  cases step_iff.mp hs with
  | read _ _ _ _ => exact List.prefix_append _ _
  | eof _ _ | readErr _ | send _ | sendFail _ | cancel _ _ _ => exact List.prefix_rfl

/-- Only `abort` asks a task to stop. -/
theorem step_abort [DecidableEq F] {l : TaskLabel F} (hs : t.step kit l = some t') :
    t'.abortRequested = t.abortRequested := by
  cases step_iff.mp hs <;> rfl

/-- What a step hands to the queue is the frame in hand. -/
theorem step_frames [DecidableEq F] {l : TaskLabel F} {f : F} (hs : t.step kit l = some t')
    (hf : f ∈ l.frames) : ∃ last, t.pc = .sending f last := by
  cases step_iff.mp hs with
  | @send frame last hpc =>
    obtain rfl := List.mem_singleton.mp hf
    exact ⟨last, hpc⟩
  | read _ _ _ _ | eof _ _ | readErr _ | sendFail _ | cancel _ _ _ => cases hf

/-- A task takes steps only between its spawn and its end. -/
theorem step_running [DecidableEq F] {l : TaskLabel F} (hs : t.step kit l = some t') :
    t.pc ≠ .idle ∧ t.pc ≠ .finished := by
  cases step_iff.mp hs with
  | read hpc _ _ _ | eof hpc _ | readErr hpc | send hpc | sendFail hpc => simp [hpc]
  | cancel _ hidle hfinished => exact ⟨hidle, hfinished⟩

/-- A task takes steps only after its spawn. -/
theorem step_spawned [DecidableEq F] {l : TaskLabel F} (hs : t.step kit l = some t') :
    t.pc ≠ .idle ∧ t'.pc ≠ .idle := by
  refine ⟨(step_running hs).1, ?_⟩
  cases step_iff.mp hs with
  | @send frame last _ => cases last <;> simp
  | read _ _ _ _ | eof _ _ | readErr _ | sendFail _ | cancel _ _ _ => simp

/-- What a step puts into the task's hand or the queue, beyond data and the
    half-close, is the reset for a read that failed. -/
theorem step_said [DecidableEq F] {l : TaskLabel F} (hs : t.step kit l = some t') {f : F}
    (hdata : ∀ bs, f ≠ kit.data bs) (hhalf : f ≠ kit.halfClose) (h : f ∈ t'.sent ++ t'.hand) :
    f ∈ t.sent ++ t.hand ∨ ∃ err, l = .readErr err ∧ f = kit.reset err := by
  cases step_iff.mp hs with
  | read _ _ _ _ =>
    refine .inl (List.mem_append_left _ ?_)
    exact (List.mem_append.mp h).resolve_right fun hhand => hdata _ (List.mem_singleton.mp hhand)
  | eof _ _ =>
    refine .inl (List.mem_append_left _ ?_)
    exact (List.mem_append.mp h).resolve_right fun hhand => hhalf (List.mem_singleton.mp hhand)
  | @readErr err _ =>
    rcases List.mem_append.mp h with hsent | hhand
    · exact .inl (List.mem_append_left _ hsent)
    · exact .inr ⟨err, rfl, List.mem_singleton.mp hhand⟩
  | @send frame last hpc =>
    -- the frame goes from the hand to the queue
    have hsame : t.sent ++ t.hand = t.sent ++ [frame] := by rw [hand, hpc]
    rw [hsame]
    cases last <;> exact .inl (by simpa [hand] using h)
  | sendFail _ | cancel _ _ _ =>
    have hsent : f ∈ t.sent := by simpa [hand] using h
    exact .inl (List.mem_append_left _ hsent)

theorem hand_spawn (t : ReadTask F) : t.spawn.hand = [] := rfl

@[simp] theorem abort_hand (t : ReadTask F) : t.abort.hand = t.hand := by
  rw [hand, hand, abort_pc]

/-- Data frames, then at most one half-close or reset. -/
def Stream (kit : FrameKit F) (frames : List F) : Prop :=
  ∃ (chunks : List Bytes) (last : List F), frames = chunks.map kit.data ++ last ∧
    (last = [] ∨ last = [kit.halfClose] ∨ ∃ reason, last = [kit.reset reason])

theorem exists_chunks {frames : List F} (h : ∀ f ∈ frames, ∃ bs, f = kit.data bs) :
    ∃ chunks : List Bytes, frames = chunks.map kit.data := by
  induction frames with
  | nil => exact ⟨[], rfl⟩
  | cons f frames ih =>
    obtain ⟨bs, rfl⟩ := h f List.mem_cons_self
    obtain ⟨chunks, rfl⟩ := ih fun f hf => h f (List.mem_cons_of_mem _ hf)
    exact ⟨bs :: chunks, rfl⟩

/-- The frames a task sends are such a stream. -/
theorem Stream.step [DecidableEq F] {l : TaskLabel F} (h : Stream kit t.sent)
    (hinv : Inv kit script t) (hs : t.step kit l = some t') : Stream kit t'.sent := by
  rw [step_sent hs]
  cases step_iff.mp hs with
  | @send frame last hpc =>
    -- the task still runs, so it has sent data only
    obtain ⟨chunks, hchunks⟩ := exists_chunks (hinv.data_only (by simp [hpc]))
    rw [hchunks]
    rcases hinv.in_hand _ _ hpc with ⟨-, bs, rfl⟩ | ⟨-, rfl, -⟩ | ⟨-, reason, rfl⟩
    · exact ⟨chunks ++ [bs], [], by simp [TaskLabel.frames], .inl rfl⟩
    · exact ⟨chunks, [kit.halfClose], rfl, .inr (.inl rfl)⟩
    · exact ⟨chunks, [kit.reset reason], rfl, .inr (.inr ⟨reason, rfl⟩)⟩
  | read _ _ _ _ | eof _ _ | readErr _ | sendFail _ | cancel _ _ _ =>
    simp only [TaskLabel.frames, List.append_nil]
    exact h

/-- A finished task takes no steps. -/
theorem step_live [DecidableEq F] {l : TaskLabel F} (hs : t.step kit l = some t') :
    t.pc ≠ .finished :=
  (step_running hs).2

/-- After the spawn an abort is noted. -/
theorem abort_requested (hspawned : t.pc ≠ .idle) : t.abort.abortRequested = true := by
  unfold abort
  split
  · next hidle => exact absurd hidle hspawned
  · rfl

end invariant

end ReadTask

end EchProxy
