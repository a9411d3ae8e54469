import EchProxy.Tunnel.Client

/-! # What a Client Relay Leaves Running

    `relay_grpc` aborts its reading task at the end of the function.  The
    returns through `?` and `bail!` on the way only drop the task's handle,
    which lets the task run on: it keeps its half of the local socket and goes
    on reading from it.

    An abort is a request.  The task drops its half when the runtime next comes
    to it, and a read that is under way on another thread may come back before
    that.
-/

namespace EchProxy

/-- In the `while let` loop: the reading task exists. -/
def ClientPc.looping : ClientPc → Bool
  | .relaying | .writing _ | .shutting => true
  | _ => false

/-- On the way to the loop, and on a return from there, there is no task. -/
theorem ClientPc.looping_eq_false {pc : ClientPc}
    (h : pc.opening = true ∨ ∃ err, pc = .returned (some err)) : pc.looping = false := by
  rcases h with hopening | ⟨err, rfl⟩
  · cases pc <;> first | rfl | cases hopening
  · rfl

/-- The item makes the loop return an error. -/
def StreamItem.fatal : StreamItem ServerFrame → Bool
  | none => false
  | some (.error _) => true
  | some (.ok frame) =>
    match frame.payload with
    | some (.reset _) | some (.openResult _) | none => true
    | some (.data _) | some .halfClose | some (.pong _) => false

/-- `local_to_grpc` comes to its own end: it hands over its last frame (the
    `HalfClose` behind the end of the local input, or the `Reset` behind a failed
    read), or the queue refuses a frame of it. -/
def ClientLabel.endsReader : ClientLabel → Bool
  | .task (.send _ true) | .task (.sendFail _ _) => true
  | _ => false

/-- The task takes a step that is not its end by an abort. -/
def ClientLabel.goesOn : ClientLabel → Bool
  | .task .cancel => false
  | .task _ => true
  | _ => false

/-- The halves that `tokio::io::split` makes of the local stream. -/
inductive Half where
  | reader
  | writer
  deriving DecidableEq

/-- Spawned and not over: the task holds its half of the local stream. -/
def ReadTask.live {F : Type} (t : ReadTask F) : Bool :=
  match t.pc with
  | .idle | .finished => false
  | .reading | .sending _ _ => true

theorem ReadTask.live_iff {F : Type} {t : ReadTask F} :
    t.live = true ↔ t.pc ≠ .idle ∧ t.pc ≠ .finished := by
  unfold ReadTask.live
  split <;> simp_all

namespace ClientState

/-! ## The returns -/

/-- The step leaves the loop through `?` or `bail!`. -/
def earlyExit (s : ClientState) : ClientLabel → Bool
  | .recv item => s.main = .relaying && item.fatal
  | .localWriteErr _ | .localShutdownErr _ => true
  | _ => false

/-- The step leaves the loop at its end. -/
def atEnd (s : ClientState) : ClientLabel → Bool
  | .recv none => s.main = .relaying
  | .localShutdownOk => true
  | _ => false

/-- The step leaves the loop. -/
def leaves (s : ClientState) (l : ClientLabel) : Bool := s.earlyExit l || s.atEnd l

/-! ## The guarantee, and where it holds -/

/-- The halves of the local stream that are still held.  The connection is closed
    when there are none. -/
def held (s : ClientState) : List Half :=
  match s.main with
  -- the stream is split behind the `OpenResult`
  | .start | .preparing | .calling | .awaitOpen => [.reader, .writer]
  | .relaying | .writing _ | .shutting => (if s.task.live then [.reader] else []) ++ [.writer]
  | .returned _ => if s.task.live then [.reader] else []

/-- Nothing of the relay is left: its task is over, the connection is closed, and
    no run goes on to consume a byte of it. -/
structure Released (sys : Lts.System ClientState ClientLabel) (s : ClientState) : Prop where
  ended : s.task.live = false
  unheld : s.held = []
  unread : ∀ ls s', sys.run s ls = some s' → s'.task.read = s.task.read

/-- The task is aborted, and whatever comes next is the end of it. -/
def Aborted (sys : Lts.System ClientState ClientLabel) (s : ClientState) : Prop :=
  s.task.abortRequested = true ∧
    ∀ l s', sys.step s l = some s' → s'.task.read = s.task.read ∧ Released sys s'

/-- Once it has returned, nothing of the relay is left. -/
def LeavesNothing (sys : Lts.System ClientState ClientLabel) (s : ClientState) : Prop :=
  ∀ err, s.main = .returned err → Released sys s

/-- Once it has returned, nothing of the relay is left but an aborted task. -/
def LeavesAborted (sys : Lts.System ClientState ClientLabel) (s : ClientState) : Prop :=
  ∀ err, s.main = .returned err → Released sys s ∨ Aborted sys s

/-- The relay takes these exits only behind the end of its task. -/
def BehindReader (sys : Lts.System ClientState ClientLabel) (localInput : Bytes)
    (exit : ClientState → ClientLabel → Bool) (ls : List ClientLabel) : Prop :=
  ∀ before l after s₁, ls = before ++ l :: after →
    sys.run (fresh localInput) before = some s₁ → exit s₁ l = true →
    ∃ l' ∈ before, l'.endsReader = true

/-- The runtime comes to an aborted task before the task goes on. -/
def Prompt (s : ClientState) (l : ClientLabel) : Prop :=
  s.task.abortRequested = true → l.goesOn = false

instance (s : ClientState) (l : ClientLabel) : Decidable (s.Prompt l) :=
  inferInstanceAs (Decidable (_ → _))

/-- The relay where an abort is acted on at once. -/
def promptSystem (target : Open) (localInput : Bytes) : Lts.System ClientState ClientLabel :=
  (system target localInput).restrict Prompt

/-- These exits are taken only where the task is over. -/
def ExitsOver (exit : ClientState → ClientLabel → Bool) (s : ClientState) (l : ClientLabel) :
    Prop :=
  exit s l = true → s.task.pc = .finished

instance (exit : ClientState → ClientLabel → Bool) (s : ClientState) (l : ClientLabel) :
    Decidable (ExitsOver exit s l) :=
  inferInstanceAs (Decidable (_ → _))

/-! ## What a step does to the loop and the task -/

/-- What a step of the relay does to the loop and to its task. -/
inductive Move (s s' : ClientState) (l : ClientLabel) : Prop where
  /-- The task moves. -/
  | task {tl : TaskLabel ClientFrame} (hmain : s'.main = s.main)
      (htask : s.task.step clientKit tl = some s'.task)
  /-- Before the loop. -/
  | opening (hmain : s.main.opening = true)
      (hmain' : s'.main.opening = true ∨ ∃ err, s'.main = .returned (some err))
      (htask : s'.task = s.task)
  /-- Into the loop. -/
  | enter (hmain : s.main = .awaitOpen) (hmain' : s'.main = .relaying)
      (htask : s'.task = s.task.spawn) (hreceived : s'.received ≠ [])
  /-- Within the loop. -/
  | stay (hmain : s.main.looping = true) (hmain' : s'.main.looping = true)
      (htask : s'.task = s.task)
  /-- Out of the loop, at its end. -/
  | finish (hmain : s.main.looping = true) (hmain' : s'.main = .returned none)
      (htask : s'.task = s.task.abort) (hend : s.atEnd l = true)
  /-- Out of the loop, early. -/
  | fail {err : RelayError} (hmain : s.main.looping = true)
      (hmain' : s'.main = .returned (some err)) (htask : s'.task = s.task)
      (hearly : s.earlyExit l = true)

section moves
variable {target : Open} {localInput : Bytes} {s s' : ClientState} {l : ClientLabel}

theorem move_onFirst (hmain : s.main = .awaitOpen) (item : StreamItem ServerFrame) :
    Move s ((s.note item).onFirst item) (.recv item) := by
  have hopening : s.main.opening = true := by
    rw [hmain]
    rfl
  unfold onFirst
  split
  · exact .opening hopening (.inr ⟨_, rfl⟩) rfl
  · exact .opening hopening (.inr ⟨_, rfl⟩) rfl
  · split
    · split
      · exact .enter hmain rfl rfl (by simp [note, StreamItem.frames])
      · exact .opening hopening (.inr ⟨_, rfl⟩) rfl
    · exact .opening hopening (.inr ⟨_, rfl⟩) rfl
    · exact .opening hopening (.inr ⟨_, rfl⟩) rfl

theorem move_onNext (hmain : s.main = .relaying) (item : StreamItem ServerFrame) :
    Move s ((s.note item).onNext item) (.recv item) := by
  have hloop : s.main.looping = true := by
    rw [hmain]
    rfl
  have hearly : item.fatal = true → s.earlyExit (.recv item) = true := by
    intro hfatal
    simp [earlyExit, hmain, hfatal]
  rcases item with _ | (status | ⟨payload⟩)
  · exact .finish hloop rfl rfl (by simp [atEnd, hmain])
  · exact .fail hloop rfl rfl (hearly rfl)
  · rcases payload with _ | (result | bytes | _ | reason | millis)
    · exact .fail hloop rfl rfl (hearly rfl)
    · exact .fail hloop rfl rfl (hearly rfl)
    · exact .stay hloop rfl rfl
    · exact .stay hloop rfl rfl
    · exact .fail hloop rfl rfl (hearly rfl)
    · exact .stay hloop hloop rfl

/-- **Every step is one of the moves.** -/
theorem step_move (hs : s.step target l = some s') : Move s s' l := by
  cases step_iff.mp hs with
  | sendOpen hmain | tokenOk hmain | callOk hmain =>
    exact .opening (by rw [hmain]; rfl) (.inl rfl) rfl
  | badToken hmain | callErr hmain => exact .opening (by rw [hmain]; rfl) (.inr ⟨_, rfl⟩) rfl
  | recvFirst hmain => exact move_onFirst hmain _
  | recvNext hmain => exact move_onNext hmain _
  | localWrite hmain | localWriteDone hmain => exact .stay (by rw [hmain]; rfl) rfl rfl
  | localWriteErr hmain | localShutdownErr hmain =>
    exact .fail (by rw [hmain]; rfl) rfl rfl rfl
  | localShutdownOk hmain => exact .finish (by rw [hmain]; rfl) rfl rfl rfl
  | task ht => exact .task rfl ht

/-- An early exit returns an error and drops the handle of the task. -/
theorem step_early (hs : s.step target l = some s') (hearly : s.earlyExit l = true) :
    s.main.looping = true ∧ (∃ err, s'.main = .returned (some err)) ∧ s'.task = s.task := by
  cases step_iff.mp hs with
  | recvFirst hmain => simp [earlyExit, hmain] at hearly
  | @recvNext item hmain =>
    simp only [earlyExit, Bool.and_eq_true, decide_eq_true_eq] at hearly
    have hfatal := hearly.2
    refine ⟨by rw [hmain]; rfl, ?_⟩
    rcases item with _ | (status | ⟨payload⟩)
    · cases hfatal
    · exact ⟨⟨_, rfl⟩, rfl⟩
    · rcases payload with _ | (result | bytes | _ | reason | millis)
      · exact ⟨⟨_, rfl⟩, rfl⟩
      · exact ⟨⟨_, rfl⟩, rfl⟩
      · cases hfatal
      · cases hfatal
      · exact ⟨⟨_, rfl⟩, rfl⟩
      · cases hfatal
  | localWriteErr hmain | localShutdownErr hmain => exact ⟨by rw [hmain]; rfl, ⟨_, rfl⟩, rfl⟩
  | _ => cases hearly

/-- Either way out of the loop returns, and leaves the task where it is. -/
theorem step_leaves (hs : s.step target l = some s') (hleaves : s.leaves l = true) :
    s.main.looping = true ∧ (∃ err, s'.main = .returned err) ∧ s'.task.pc = s.task.pc := by
  rcases Bool.or_eq_true_iff.mp hleaves with hearly | hend
  · obtain ⟨hloop, ⟨err, hreturned⟩, htask⟩ := step_early hs hearly
    exact ⟨hloop, ⟨_, hreturned⟩, by rw [htask]⟩
  · cases step_iff.mp hs with
    | @recvFirst item hmain =>
      rcases item with _ | item
      · simp [atEnd, hmain] at hend
      · cases hend
    | @recvNext item hmain =>
      rcases item with _ | item
      · exact ⟨by rw [hmain]; rfl, ⟨_, rfl⟩, ReadTask.abort_pc _⟩
      · cases hend
    | localShutdownOk hmain => exact ⟨by rw [hmain]; rfl, ⟨_, rfl⟩, ReadTask.abort_pc _⟩
    | _ => cases hend

/-! ## The task while the loop runs -/

/-- The task is spawned with the loop, and told to stop only at its end. -/
structure TaskPhase (s : ClientState) : Prop where
  unspawned : s.main.opening = true → s.task.pc = .idle ∧ s.task.abortRequested = false
  running : s.main.looping = true → s.task.pc ≠ .idle ∧ s.task.abortRequested = false

theorem TaskPhase.step (h : TaskPhase s) (hs : s.step target l = some s') : TaskPhase s' := by
  cases step_move hs with
  | task hmain htask =>
    obtain ⟨hspawned, hspawned'⟩ := ReadTask.step_spawned htask
    have habort := ReadTask.step_abort htask
    refine ⟨fun hopening => ?_, fun hloop => ?_⟩
    -- a task that takes a step was spawned, so the opening is behind it
    · exact absurd (h.unspawned (hmain ▸ hopening)).1 hspawned
    · exact ⟨hspawned', habort.trans (h.running (hmain ▸ hloop)).2⟩
  | opening hmain hmain' htask =>
    refine ⟨fun _ => htask ▸ h.unspawned hmain, fun hloop => ?_⟩
    rw [ClientPc.looping_eq_false hmain'] at hloop
    cases hloop
  | enter hmain hmain' htask _ =>
    have hidle := h.unspawned (by rw [hmain]; rfl)
    refine ⟨fun hopening => ?_, fun _ => ?_⟩
    · rw [hmain'] at hopening
      cases hopening
    · rw [htask]
      exact ⟨by simp [ReadTask.spawn], hidle.2⟩
  | stay hmain hmain' htask =>
    refine ⟨fun hopening => ?_, fun _ => htask ▸ h.running hmain⟩
    rw [ClientPc.looping_eq_false (.inl hopening)] at hmain'
    cases hmain'
  | finish hmain hmain' htask | fail hmain hmain' htask _ =>
    refine ⟨fun hopening => ?_, fun hloop => ?_⟩
    · rw [hmain'] at hopening
      cases hopening
    · rw [hmain'] at hloop
      cases hloop

theorem taskPhase_of_reachable (hr : (system target localInput).Reachable s) : TaskPhase s := by
  refine Lts.System.invariant (system target localInput) TaskPhase ?_ ?_ s hr
  · rintro s rfl
    exact ⟨fun _ => ⟨rfl, rfl⟩, fun hloop => by cases hloop⟩
  · intro s l s' h hs
    exact h.step hs

/-! ## The end of the task -/

/-- A task that was not aborted is over where it has come to its own end. -/
theorem step_over (hphase : TaskPhase s) (hs : s.step target l = some s')
    (habort : s'.task.abortRequested = false) :
    s'.task.pc = .finished ↔ s.task.pc = .finished ∨ l.endsReader = true := by
  cases step_iff.mp hs with
  | @task tl t ht =>
    have hlive := ReadTask.step_live ht
    cases ReadTask.step_iff.mp ht with
    | @send frame last hpc => cases last <;> simp [ClientLabel.endsReader, hpc]
    | sendFail hpc => simp [ClientLabel.endsReader]
    | cancel hrequested _ _ =>
      rw [show s.task.abortRequested = false from habort] at hrequested
      cases hrequested
    | read _ _ _ _ | eof _ _ | readErr _ => simp [ClientLabel.endsReader, hlive]
  | @recvFirst item hmain =>
    have hidle := (hphase.unspawned (by rw [hmain]; rfl)).1
    obtain ⟨main, task, heq, htask⟩ := onFirst_eq (s.note item) item
    rw [heq]
    rcases htask with rfl | rfl
    · simp [ClientLabel.endsReader, note]
    · simp [ClientLabel.endsReader, ReadTask.spawn, hidle]
  | @recvNext item hmain =>
    obtain ⟨main, task, heq, htask⟩ := onNext_eq (s.note item) item
    rw [heq]
    rcases htask with rfl | rfl <;> simp [ClientLabel.endsReader, note]
  | localShutdownOk hmain => simp [ClientLabel.endsReader, finish]
  | _ => simp [ClientLabel.endsReader, fail]

/-- An abort is not taken back. -/
theorem step_aborted (hs : s.step target l = some s') (habort : s.task.abortRequested = true) :
    s'.task.abortRequested = true := by
  rcases (step_effect hs).task with ⟨tl, -, ht⟩ | heq | heq | ⟨-, heq⟩
  · rw [ReadTask.step_abort ht, habort]
  · rw [heq, habort]
  · rw [heq]
    unfold ReadTask.abort
    split
    · exact habort
    · rfl
  · rw [heq]
    exact habort

/-- Over a whole run: the task is over where the run has a step that ends it. -/
theorem run_over {ls : List ClientLabel}
    (h : (system target localInput).run (fresh localInput) ls = some s)
    (habort : s.task.abortRequested = false) :
    s.task.pc = .finished ↔ ∃ l ∈ ls, l.endsReader = true := by
  induction ls using List.reverseRecOn generalizing s with
  | nil =>
    obtain rfl := Option.some.inj h
    simp [fresh, ReadTask.fresh]
  | append_singleton ls l ih =>
    obtain ⟨s₁, s₂, hls, hl, hlast⟩ := Lts.System.run_split h
    obtain rfl := Option.some.inj hlast
    have habort₁ : s₁.task.abortRequested = false := by
      by_contra hnot
      rw [step_aborted hl (by simpa using hnot)] at habort
      cases habort
    have hphase := taskPhase_of_reachable (Lts.System.reachable_of_run (.init rfl) hls)
    rw [step_over hphase hl habort, ih hls habort₁]
    simp [or_and_right, exists_or]

/-- The exits of a run that are taken only where the task is over. -/
theorem behindReader_iff {sys : Lts.System ClientState ClientLabel}
    (hsub : ∀ s l s', sys.step s l = some s' → (system target localInput).step s l = some s')
    {exit : ClientState → ClientLabel → Bool} (hexit : ∀ s l, exit s l = true → s.leaves l = true)
    {ls : List ClientLabel}
    (h : sys.run (fresh localInput) ls = some s) :
    (sys.restrict (ExitsOver exit)).run (fresh localInput) ls = some s ↔
      BehindReader sys localInput exit ls := by
  rw [Lts.System.restrict_run_iff h]
  refine forall₄_congr fun before l after s₁ => forall₂_congr fun hls hbefore => ?_
  refine forall_congr' fun hleaves => ?_
  subst hls
  obtain ⟨s₂, s₃, hbefore', hl, -⟩ := Lts.System.run_split h
  obtain rfl := Option.some.inj (hbefore.symm.trans hbefore')
  have hrun := Lts.System.run_mono hsub hbefore
  have hphase := taskPhase_of_reachable (Lts.System.reachable_of_run (.init rfl) hrun)
  -- in the loop nobody has aborted the task
  have hloop := (step_leaves (hsub _ _ _ hl) (hexit _ _ hleaves)).1
  exact run_over hrun (hphase.running hloop).2

/-! ## When nothing is left -/

/-- A relay that has returned, with its task over or never spawned, takes no step. -/
theorem released_of_over {sys : Lts.System ClientState ClientLabel}
    (hsub : ∀ s l s', sys.step s l = some s' → (system target localInput).step s l = some s')
    (hreturned : ∃ err, s.main = .returned err) (hover : s.task.live = false) :
    Released sys s := by
  obtain ⟨err, hreturned⟩ := hreturned
  refine ⟨hover, by simp [held, hreturned, hover], fun ls s' hrun => ?_⟩
  cases ls with
  | nil => rw [Option.some.inj hrun]
  | cons l ls =>
    rw [Lts.System.run_cons, Option.bind_eq_some_iff] at hrun
    obtain ⟨s₁, hl, -⟩ := hrun
    cases step_iff.mp (hsub _ _ _ hl) with
    | task ht =>
      rw [ReadTask.live_iff.mpr (ReadTask.step_running ht)] at hover
      cases hover
    | _ hmain =>
      rw [hreturned] at hmain
      cases hmain

/-- How a relay comes to have returned. -/
theorem returned_cases {err : Option RelayError} (hphase : TaskPhase s)
    (hs : s.step target l = some s') (hreturned : s'.main = .returned err) :
    (s.main = .returned err ∧ s.task.live = true ∧
        s'.task.abortRequested = s.task.abortRequested) ∨
      s'.task.live = false ∨
      (s.leaves l = true ∧ s'.task.pc = s.task.pc ∧
        (s.earlyExit l = true ∨ s'.task.abortRequested = true)) := by
  cases step_move hs with
  | task hmain htask =>
    exact .inl ⟨hmain ▸ hreturned, ReadTask.live_iff.mpr (ReadTask.step_running htask),
      ReadTask.step_abort htask⟩
  | opening hmain _ htask =>
    refine .inr (.inl ?_)
    rw [htask, ReadTask.live, (hphase.unspawned hmain).1]
  | enter _ hmain' _ _ =>
    rw [hmain'] at hreturned
    cases hreturned
  | stay _ hmain' _ =>
    rw [hreturned] at hmain'
    cases hmain'
  | finish hmain _ htask hend =>
    refine .inr (.inr ⟨by simp [leaves, hend], ?_, .inr ?_⟩)
    · rw [htask, ReadTask.abort_pc]
    · rw [htask, ReadTask.abort_requested (hphase.running hmain).1]
  | fail _ _ htask hearly =>
    exact .inr (.inr ⟨by simp [leaves, hearly], by rw [htask], .inl hearly⟩)

/-- A return behind the end of the task leaves it over. -/
theorem live_of_exitsOver {exit : ClientState → ClientLabel → Bool} (hok : ExitsOver exit s l)
    (hexit : exit s l = true) (hpc : s'.task.pc = s.task.pc) : s'.task.live = false := by
  rw [ReadTask.live, hpc, hok hexit]

/-- Where all exits are taken behind the end of the task, the task is over. -/
theorem over_of_reachable
    (hr : ((system target localInput).restrict (ExitsOver leaves)).Reachable s) :
    ∀ err, s.main = .returned err → s.task.live = false := by
  refine Lts.System.invariant_of_reachable _
    (fun s => ∀ err, s.main = .returned err → s.task.live = false) ?_ ?_ s hr
  · rintro s rfl err hreturned
    cases hreturned
  · intro s l s' hr h hs err hreturned
    obtain ⟨hok, hs⟩ := Lts.System.restrict_step_iff.mp hs
    rcases returned_cases (taskPhase_of_reachable hr.of_restrict) hs hreturned with
      ⟨hbefore, hlive, -⟩ | hover | ⟨hleaves, hpc, -⟩
    · rw [h err hbefore] at hlive
      cases hlive
    · exact hover
    · exact live_of_exitsOver hok hleaves hpc

/-- Where the early exits are, it is over or aborted. -/
theorem over_or_aborted_of_reachable
    (hr : ((promptSystem target localInput).restrict (ExitsOver earlyExit)).Reachable s) :
    ∀ err, s.main = .returned err → s.task.live = false ∨ s.task.abortRequested = true := by
  refine Lts.System.invariant_of_reachable _ (fun s => ∀ err, s.main = .returned err →
    s.task.live = false ∨ s.task.abortRequested = true) ?_ ?_ s hr
  · rintro s rfl err hreturned
    cases hreturned
  · intro s l s' hr h hs err hreturned
    obtain ⟨hok, hs⟩ := Lts.System.restrict_step_iff.mp hs
    obtain ⟨-, hs⟩ := Lts.System.restrict_step_iff.mp hs
    have hphase := taskPhase_of_reachable hr.of_restrict.of_restrict
    rcases returned_cases hphase hs hreturned with
      ⟨hbefore, hlive, hsame⟩ | hover | ⟨-, hpc, hearly | habort⟩
    · refine .inr (hsame.trans ((h err hbefore).resolve_left ?_))
      rw [hlive]
      decide
    · exact .inl hover
    · exact .inl (live_of_exitsOver hok hearly hpc)
    · exact .inr habort

theorem prompt_sub (s : ClientState) (l : ClientLabel) (s' : ClientState)
    (hs : (promptSystem target localInput).step s l = some s') :
    (system target localInput).step s l = some s' :=
  (Lts.System.restrict_step_iff.mp hs).2

/-- An aborted task ends with its next step. -/
theorem aborted_of_requested {err : Option RelayError} (hreturned : s.main = .returned err)
    (habort : s.task.abortRequested = true) : Aborted (promptSystem target localInput) s := by
  refine ⟨habort, fun l s' hs => ?_⟩
  obtain ⟨hprompt, hs⟩ := Lts.System.restrict_step_iff.mp hs
  cases step_iff.mp hs with
  | @task tl t ht =>
    cases tl with
    | cancel =>
      cases ReadTask.step_iff.mp ht with
      | cancel _ _ _ =>
        exact ⟨rfl, released_of_over prompt_sub ⟨err, hreturned⟩ rfl⟩
    | _ => cases hprompt habort
  | _ hmain =>
    rw [hreturned] at hmain
    cases hmain

/-- A return that is not behind the end of the task leaves it its half. -/
theorem live_of_not_exitsOver {exit : ClientState → ClientLabel → Bool}
    (hexit : exit s l = true → s.leaves l = true) (hphase : TaskPhase s)
    (hs : s.step target l = some s') (hnot : ¬ ExitsOver exit s l) :
    exit s l = true ∧ (∃ err, s'.main = .returned err) ∧ s'.task.live = true := by
  simp only [ExitsOver, Classical.not_imp] at hnot
  obtain ⟨hleaves, hlive⟩ := hnot
  obtain ⟨hloop, hreturned, hpc⟩ := step_leaves hs (hexit hleaves)
  refine ⟨hleaves, hreturned, ReadTask.live_iff.mpr ?_⟩
  rw [hpc]
  exact ⟨(hphase.running hloop).1, hlive⟩

/-- **A relay leaves nothing behind at its return exactly when** it returns from its
    loop only behind the end of its reading task; and where aborts are acted on at
    once, it leaves nothing but an aborted task exactly when its early returns are. -/
theorem released_exact :
    (∀ (ls : List ClientLabel) (s : ClientState),
      (system target localInput).run (fresh localInput) ls = some s →
      ((∀ pre s₁, pre <+: ls →
          (system target localInput).run (fresh localInput) pre = some s₁ →
          LeavesNothing (system target localInput) s₁) ↔
        BehindReader (system target localInput) localInput leaves ls)) ∧
      ∀ (ls : List ClientLabel) (s : ClientState),
        (promptSystem target localInput).run (fresh localInput) ls = some s →
        ((∀ pre s₁, pre <+: ls →
            (promptSystem target localInput).run (fresh localInput) pre = some s₁ →
            LeavesAborted (promptSystem target localInput) s₁) ↔
          BehindReader (promptSystem target localInput) localInput earlyExit ls) := by
  constructor
  · intro ls s hrun
    rw [← behindReader_iff (fun _ _ _ hs => hs) (fun _ _ h => h) hrun]
    refine Lts.System.run_good_iff ?_ ?_ (.init rfl) hrun
    · intro s hr err hreturned
      exact released_of_over (fun _ _ _ hs => hs) ⟨err, hreturned⟩ (over_of_reachable hr err hreturned)
    · intro s l s' hr hs hnot hgood
      have hphase := taskPhase_of_reachable hr.of_restrict
      obtain ⟨-, ⟨err, hreturned⟩, hlive⟩ := live_of_not_exitsOver id hphase hs hnot
      rw [(hgood err hreturned).ended] at hlive
      cases hlive
  · intro ls s hrun
    have hearly : ∀ (s : ClientState) (l : ClientLabel), s.earlyExit l = true →
        s.leaves l = true := by
      intro s l h
      simp [leaves, h]
    rw [← behindReader_iff prompt_sub hearly hrun]
    refine Lts.System.run_good_iff ?_ ?_ (.init rfl) hrun
    · intro s hr err hreturned
      by_cases hlive : s.task.live = false
      · exact .inl (released_of_over prompt_sub ⟨err, hreturned⟩ hlive)
      · have hover := over_or_aborted_of_reachable hr err hreturned
        exact .inr (aborted_of_requested hreturned (hover.resolve_left hlive))
    · intro s l s' hr hs hnot hgood
      have hs := prompt_sub _ _ _ hs
      have hphase := taskPhase_of_reachable hr.of_restrict.of_restrict
      obtain ⟨hexit, ⟨err, hreturned⟩, hlive⟩ :=
        live_of_not_exitsOver (hearly s l) hphase hs hnot
      obtain ⟨hloop, -, htask⟩ := step_early hs hexit
      -- the handle was dropped, so nobody has aborted the task
      rcases hgood err hreturned with hreleased | haborted
      · rw [hreleased.ended] at hlive
        cases hlive
      · have habort := haborted.1
        rw [htask, (hphase.running hloop).2] at habort
        cases habort

end moves

/-! ## Ends of a relay -/

/-- A tunnel that opens, up to the loop. -/
def openedLabels : List ClientLabel :=
  [.sendOpen, .tokenOk, .callOk, .recv (some (.ok (openResultFrame true "")))]

/-- Both sides have said all they have to say. -/
def exampleDone : List ClientLabel :=
  openedLabels ++ [.task (.read [7]), .task (.send (dataFrame [7]) false), .task .eof,
    .task (.send halfCloseFrame true), .recv (some (.ok serverHalfClose)), .localShutdownOk]

/-- The stream ends while the task waits in its read. -/
def exampleEnded : List ClientLabel := openedLabels ++ [.recv none]

/-- In the first nothing is left, and in the second a task that is aborted. -/
theorem released_exact_ended :
    (∃ s, (system ⟨[], 443, []⟩ [7]).run (fresh [7]) exampleDone = some s ∧
        s.main = .returned none ∧ Released (system ⟨[], 443, []⟩ [7]) s) ∧
      ∃ s, (promptSystem ⟨[], 443, []⟩ [7]).run (fresh [7]) exampleEnded = some s ∧
        s.main = .returned none ∧ s.task.live = true ∧
        LeavesAborted (promptSystem ⟨[], 443, []⟩ [7]) s := by
  constructor
  · obtain ⟨s, hrun, hreturned, hover⟩ : ∃ s,
        (system ⟨[], 443, []⟩ [7]).run (fresh [7]) exampleDone = some s ∧
        s.main = .returned none ∧
        ((system ⟨[], 443, []⟩ [7]).restrict (ExitsOver leaves)).run (fresh [7]) exampleDone
          = some s := ⟨_, rfl, rfl, rfl⟩
    have hbehind := (behindReader_iff (fun _ _ _ hs => hs) (fun _ _ h => h) hrun).mp hover
    have hleft := (released_exact.1 exampleDone s hrun).mpr hbehind
    exact ⟨s, hrun, hreturned, hleft _ s (List.prefix_refl _) hrun none hreturned⟩
  · obtain ⟨s, hrun, hreturned, hlive, hover⟩ : ∃ s,
        (promptSystem ⟨[], 443, []⟩ [7]).run (fresh [7]) exampleEnded = some s ∧
        s.main = .returned none ∧ s.task.live = true ∧
        ((promptSystem ⟨[], 443, []⟩ [7]).restrict (ExitsOver earlyExit)).run (fresh [7])
          exampleEnded = some s := ⟨_, rfl, rfl, rfl, rfl⟩
    have hbehind := (behindReader_iff prompt_sub (fun _ _ h => by simp [leaves, h]) hrun).mp hover
    have hleft := (released_exact.2 exampleEnded s hrun).mpr hbehind
    exact ⟨s, hrun, hreturned, hlive, hleft _ s (List.prefix_refl _) hrun⟩

/-- After a `Reset` the task goes on: it holds its half, nobody has aborted it, and it
    takes a byte of the local socket that nobody will see. -/
theorem reset_leaves_reader :
    ∃ s s', (system ⟨[], 443, []⟩ [7]).run (fresh [7])
        (openedLabels ++ [.recv (some (.ok (serverReset "gone")))]) = some s ∧
      s.main = .returned (some (.reset "gone")) ∧ s.held = [.reader] ∧
      ¬ LeavesNothing (system ⟨[], 443, []⟩ [7]) s ∧
      ¬ LeavesAborted (promptSystem ⟨[], 443, []⟩ [7]) s ∧
      s.step ⟨[], 443, []⟩ (.task (.read [7])) = some s' ∧ s'.task.read = [7] := by
  refine ⟨_, _, rfl, rfl, rfl, fun h => ?_, fun h => ?_, rfl, rfl⟩
  · cases (h _ rfl).ended
  · rcases h _ rfl with hreleased | haborted
    · cases hreleased.ended
    · cases haborted.1

end ClientState

end EchProxy
