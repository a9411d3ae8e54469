import EchProxy.Tunnel.Enforcement
import EchProxy.Tunnel.Speech

/-! # What the Server Side Leaves Running

    Every way out of the relay loop of `handle_tunnel` comes to the end of the
    function, where the reading task is aborted; the returns before the loop
    are taken when there is no task yet.  Unlike the client, the server
    therefore never leaves its task behind, whatever goes wrong.
-/

namespace EchProxy

open Server

namespace ServerState

/-! ## What a step does to the task -/

/-- What a step does to the reading task: it moves by itself, or the main loop
    spawns it, aborts it on its return, or leaves it alone. -/
inductive TaskMove (s s' : ServerState) : Prop where
  | own {tl : TaskLabel ServerFrame} (hmain : s'.main = s.main)
      (htask : s.task.step serverKit tl = some s'.task)
  | spawn (hmain : s.main = .openOk) (hmain' : s'.main = .relaying)
      (htask : s'.task = s.task.spawn)
  | same (hmain : ∀ why, s.main ≠ .returned why) (hmain' : ∀ why, s'.main ≠ .returned why)
      (htask : s'.task = s.task)
  | abort {why : ServerExit} (hmain : ∀ why, s.main ≠ .returned why)
      (hmain' : s'.main = .returned why) (htask : s'.task = s.task.abort)

section moves
variable {config : ServerConfig} {metadata : MetadataMap} {targetInput : Bytes} {text : IpText}
  {s s' : ServerState} {l : ServerLabel}

/-- Leaving sends a last frame first, or returns at once. -/
theorem taskMove_leave (hmain : ∀ why, s.main ≠ .returned why) (t : ServerState)
    (htask : t.task = s.task) (why : ServerExit) : TaskMove s (t.leave text why) := by
  unfold leave
  split
  · exact .same hmain (fun why heq => by cases heq) htask
  · exact .abort hmain rfl (congrArg ReadTask.abort htask)

theorem taskMove_onFirst (hmain : s.main = .waitOpen) (item : StreamItem ClientFrame) :
    TaskMove s ((s.note item).onFirst text item) := by
  have hnot : ∀ why, s.main ≠ .returned why := by simp [hmain]
  unfold onFirst
  split
  · exact taskMove_leave hnot (s.note _) rfl _
  · exact taskMove_leave hnot (s.note _) rfl _
  · split
    · exact .same hnot (fun why heq => by cases heq) rfl
    · exact taskMove_leave hnot (s.note _) rfl _

theorem taskMove_onNext (hmain : s.main = .relaying) (item : StreamItem ClientFrame) :
    TaskMove s ((s.note item).onNext text item) := by
  have hnot : ∀ why, s.main ≠ .returned why := by simp [hmain]
  unfold onNext
  split
  · exact .same hnot (fun why heq => by cases heq) rfl
  · exact .same hnot (fun why heq => by cases heq) rfl
  · split
    · exact .same hnot (fun why heq => by cases heq) rfl
    · exact .same hnot (fun why heq => by cases heq) rfl
    · exact .same hnot (fun why heq => by cases heq) rfl
    · exact .same hnot (fun why heq => by cases heq) rfl
    · exact taskMove_leave hnot (s.note _) rfl _
    · exact taskMove_leave hnot (s.note _) rfl _

theorem taskMove_onResolve {target : Open} (hmain : s.main = .resolving target)
    (answer : Except String (List SocketAddr)) : TaskMove s (s.onResolve config target answer) := by
  have hnot : ∀ why, s.main ≠ .returned why := by simp [hmain]
  unfold onResolve
  split
  · exact .same hnot (fun why heq => by cases heq) rfl
  · exact taskMove_leave hnot
      { s with lookups := s.lookups ++ resolverCall config target answer } rfl _

theorem taskMove_onDial {target : Open} {addr : SocketAddr} {rest : List SocketAddr}
    {lastErr : Option String} (hmain : s.main = .connecting target (addr :: rest) lastErr)
    (outcome : DialOutcome) : TaskMove s (s.onDial config target addr rest outcome) := by
  have hnot : ∀ why, s.main ≠ .returned why := by simp [hmain]
  unfold onDial
  split
  · split
    · exact .same hnot (fun why heq => by cases heq) rfl
    · exact taskMove_leave hnot (s.dialed _ _) rfl _
  · exact .same hnot (fun why heq => by cases heq) rfl
  · exact .same hnot (fun why heq => by cases heq) rfl

/-- A send of the main loop, taken by the queue or not. -/
theorem taskMove_afterSend (hout : (s.outgoing text).isSome = true) (t : ServerState)
    (hmain : t.main = s.main) (htask : t.task = s.task) : TaskMove s t.afterSend := by
  obtain ⟨frame, hout⟩ := Option.isSome_iff_exists.mp hout
  unfold outgoing at hout
  split at hout
  · next hopen =>
    rw [afterSend, hmain, hopen]
    exact .spawn hopen rfl (congrArg ReadTask.spawn htask)
  · next millis hpong =>
    rw [afterSend, hmain, hpong]
    exact .same (by simp [hpong]) (fun why heq => by cases heq) htask
  · next why hclosing =>
    rw [afterSend, hmain, hclosing]
    exact .abort (by simp [hclosing]) rfl (congrArg ReadTask.abort htask)
  · cases hout

/-- **Every step of the server is one of these.** -/
theorem step_taskMove (hs : s.step config metadata l = some s') : TaskMove s s' := by
  cases step_iff.mp hs with
  | authenticated hmain _ | rejected hmain _ | firstWrite hmain _ _ | write hmain _ _
  | firstWriteDone hmain | writeDone hmain | shutdown hmain =>
    exact .same (by simp [hmain]) (fun why heq => by cases heq) rfl
  | recvFirst hmain => exact taskMove_onFirst hmain _
  | recvNext hmain => exact taskMove_onNext hmain _
  | openTimeout hmain | idleTimeout hmain | exhausted hmain | firstWriteErr hmain
  | writeErr hmain => exact taskMove_leave (by simp [hmain]) s rfl _
  | resolve hmain => exact taskMove_onResolve hmain _
  | dial hmain => exact taskMove_onDial hmain _
  | shutdownOut hmain =>
    have hnot : ∀ why, s.main ≠ .returned why := by simp [hmain]
    exact taskMove_leave hnot s.shutTarget rfl _
  | send hout => exact taskMove_afterSend (by rw [hout]; rfl) _ rfl rfl
  | sendFail hout => exact taskMove_afterSend hout s rfl rfl
  | task ht => exact .own rfl ht

/-! ## The task over a run -/

/-- Where the task is, by where the main loop is. -/
structure TaskPhase (s : ServerState) : Prop where
  staged : s.main.Staged
  unspawned : s.main.early = true → s.task.pc = .idle ∧ s.task.abortRequested = false
  running : s.main.late = true → (∀ why, s.main ≠ .returned why) →
    s.task.pc ≠ .idle ∧ s.task.abortRequested = false
  returned : ∀ why, s.main = .returned why → s.task.pc = .idle ∨ s.task.abortRequested = true

theorem taskPhase_fresh (targetInput : Bytes) : TaskPhase (fresh targetInput) where
  staged := .inl rfl
  unspawned := fun _ => ⟨rfl, rfl⟩
  running := fun hlate => by cases hlate
  returned := fun _ hmain => by cases hmain

/-- **The phases of the task are kept by every step.** -/
theorem TaskPhase.step (h : TaskPhase s) (hs : s.step config metadata l = some s') :
    TaskPhase s' := by
  have hspeaks := step_speaks h.staged hs
  have hstaged' : s'.main.Staged := by
    cases hspeaks with
    | task _ hmain _ => exact hmain ▸ h.staged
    | quiet _ hmain' _ _ => exact hmain'.imp_right .inr
    | refuse _ hmain' hearly _ _ _ => exact .inr (.inr ⟨_, hmain', hearly⟩)
    | opens _ hmain' _ _ => exact .inr (.inl (by rw [hmain']; rfl))
    | late _ hmain' _ _ => exact .inr (.inl hmain')
  cases step_taskMove hs with
  | own hmain htask =>
    obtain ⟨hspawned, hspawned'⟩ := ReadTask.step_spawned htask
    have habort := ReadTask.step_abort htask
    refine ⟨hstaged', fun hearly => ?_, fun hlate hnot => ?_, fun why hreturned => ?_⟩
    -- a task that takes a step was spawned
    · exact absurd (h.unspawned (hmain ▸ hearly)).1 hspawned
    · exact ⟨hspawned', habort.trans (h.running (hmain ▸ hlate) (hmain ▸ hnot)).2⟩
    · have hgone := (h.returned why (hmain ▸ hreturned)).resolve_left hspawned
      exact .inr (habort.trans hgone)
  | spawn hmain hmain' htask =>
    have hidle := h.unspawned (by rw [hmain]; rfl)
    refine ⟨hstaged', fun hearly => ?_, fun _ _ => ?_, fun why hreturned => ?_⟩
    · rw [hmain'] at hearly
      cases hearly
    · rw [htask]
      exact ⟨by simp [ReadTask.spawn], hidle.2⟩
    · rw [hmain'] at hreturned
      cases hreturned
  | same hmain hmain' htask =>
    refine ⟨hstaged', fun hearly => ?_, fun hlate _ => ?_, fun why hreturned => ?_⟩
    · rw [htask]
      cases hspeaks with
      | task _ hsame _ => exact h.unspawned (hsame ▸ hearly)
      | quiet hbefore _ _ _ => exact h.unspawned hbefore
      | refuse hbefore _ _ _ _ _ => exact h.unspawned hbefore
      | opens hbefore _ _ _ => exact h.unspawned (by rw [hbefore]; rfl)
      | late _ hlate' _ _ =>
        rw [ServerPc.not_early_of_late hlate'] at hearly
        cases hearly
    · rw [htask]
      cases hspeaks with
      | task _ hsame _ => exact h.running (hsame ▸ hlate) hmain
      | quiet _ hbefore _ _ =>
        rcases hbefore with hearly | ⟨why, hreturned, -⟩
        · rw [ServerPc.not_early_of_late hlate] at hearly
          cases hearly
        · exact absurd hreturned (hmain' why)
      | refuse _ hreturned _ _ _ _ => exact absurd hreturned (hmain' _)
      -- the opening spawns the task, so it is not left alone there
      | opens hbefore _ _ hspawn =>
        have hidle := (h.unspawned (by rw [hbefore]; rfl)).1
        rw [← htask, hspawn] at hidle
        cases hidle
      | late hlate' _ _ _ => exact h.running hlate' hmain
    · exact absurd hreturned (hmain' why)
  | abort hmain hmain' htask =>
    refine ⟨hstaged', fun hearly => ?_, fun _ hnot => absurd hmain' (hnot _), fun _ _ => ?_⟩
    · rw [hmain'] at hearly
      cases hearly
    · rw [htask]
      rcases h.staged with hearly | hlate | ⟨why, hreturned, -⟩
      · exact .inl ((ReadTask.abort_pc _).trans (h.unspawned hearly).1)
      · exact .inr (ReadTask.abort_requested (h.running hlate hmain).1)
      · exact absurd hreturned (hmain why)

theorem taskPhase_of_reachable (hr : (system config metadata targetInput).Reachable s) :
    TaskPhase s := by
  refine Lts.System.invariant (system config metadata targetInput) TaskPhase ?_ ?_ s hr
  · rintro s rfl
    exact taskPhase_fresh _
  · intro s l s' h hs
    exact h.step hs

/-- Only a task that was spawned is told to stop. -/
theorem spawned_of_aborted (hr : (system config metadata targetInput).Reachable s) :
    s.task.abortRequested = true → s.task.pc ≠ .idle := by
  refine Lts.System.invariant (system config metadata targetInput)
    (fun s => s.task.abortRequested = true → s.task.pc ≠ .idle) ?_ ?_ s hr
  · rintro s rfl habort
    cases habort
  · intro s l s' h hs habort
    cases step_taskMove hs with
    | own _ htask => exact (ReadTask.step_spawned htask).2
    | spawn _ _ htask =>
      rw [htask]
      simp [ReadTask.spawn]
    | same _ _ htask =>
      rw [htask] at habort ⊢
      exact h habort
    | abort _ _ htask =>
      intro hidle
      rw [htask, ReadTask.abort_pc] at hidle
      -- there is no handle to abort
      rw [htask, ReadTask.abort, hidle] at habort
      exact h habort hidle

/-! ## The guarantee -/

/-- **The server leaves nothing running**: in every run the reading task, once it was
    spawned, is told to stop exactly when the main loop has returned, and then it is
    through, was never spawned, or can stop at once. -/
theorem nothing_left_running (hr : (system config metadata targetInput).Reachable s) :
    (s.task.abortRequested = true ↔ s.task.pc ≠ .idle ∧ ∃ why, s.main = .returned why) ∧
      ∀ why, s.main = .returned why → s.task.pc = .idle ∨ s.task.pc = .finished ∨
        ∃ s', s.step config metadata (.task .cancel) = some s' ∧ s'.main = .returned why ∧
          s'.task.pc = .finished := by
  have h := taskPhase_of_reachable hr
  refine ⟨⟨fun habort => ⟨spawned_of_aborted hr habort, ?_⟩, ?_⟩, ?_⟩
  · rcases h.staged with hearly | hlate | ⟨why, hreturned, -⟩
    · rw [(h.unspawned hearly).2] at habort
      cases habort
    · by_contra hnot
      rw [(h.running hlate (fun why hmain => hnot ⟨why, hmain⟩)).2] at habort
      cases habort
    · exact ⟨why, hreturned⟩
  · rintro ⟨hspawned, why, hreturned⟩
    exact (h.returned why hreturned).resolve_left hspawned
  · intro why hreturned
    rcases h.returned why hreturned with hidle | habort
    · exact .inl hidle
    · by_cases hdone : s.task.pc = .idle ∨ s.task.pc = .finished
      · exact hdone.imp_right .inl
      · rw [not_or] at hdone
        have hcancel : s.task.step serverKit .cancel = some { s.task with pc := .finished } :=
          ReadTask.step_iff.mpr (.cancel habort hdone.1 hdone.2)
        exact .inr (.inr ⟨_, step_iff.mpr (.task hcancel), hreturned, rfl⟩)

end moves

/-- A tunnel that opens, is given up as idle and has lost its queue, with a byte of the
    target still in hand. -/
def exampleLost : List ServerLabel :=
  exampleLabels ++ [.task (.read [7]), .idleTimeout, .sendFail]

theorem nothing_left_running_lost :
    ∃ s, (system exampleServer exampleRequest [7]).run (fresh [7]) exampleLost = some s ∧
      s.main = .returned .idle ∧
      ∃ s', s.step exampleServer exampleRequest (.task .cancel) = some s' ∧
        s'.task.pc = .finished := by
  obtain ⟨s, hrun⟩ : ∃ s,
      (system exampleServer exampleRequest [7]).run (fresh [7]) exampleLost = some s := ⟨_, rfl⟩
  have hseen : ((system exampleServer exampleRequest [7]).run (fresh [7]) exampleLost).map
      (fun s => (s.main, s.task.pc)) = some (.returned .idle, .sending (serverData [7]) false) :=
    rfl
  rw [hrun] at hseen
  obtain ⟨hmain, hpc⟩ := Prod.mk.inj (Option.some.inj hseen)
  have hr := Lts.System.reachable_of_run (.init rfl) hrun
  refine ⟨s, hrun, hmain, ?_⟩
  rcases (nothing_left_running hr).2 .idle hmain with hidle | hfinished | ⟨s', hstep, -, hpc'⟩
  · rw [hpc] at hidle
    cases hidle
  · rw [hpc] at hfinished
    cases hfinished
  · exact ⟨s', hstep, hpc'⟩

end ServerState

end EchProxy
