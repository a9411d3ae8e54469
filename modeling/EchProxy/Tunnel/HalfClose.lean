import EchProxy.Tunnel.Direct
import EchProxy.Tunnel.Progress
import EchProxy.Tunnel.Termination

/-! # Half-Close: the Tunnel against the Direct Relay

    The direct relay keeps each direction open until its own end of file.
    The tunnel does not: the client leaves its loop at the server's half-close
    and aborts `local_to_grpc`, which may still have local bytes to read or a
    data frame in hand.  In a complete run without faults nothing else is
    lost, so the two relays deliver the same exactly when the abort finds the
    task drained.
-/

namespace EchProxy

open Server Fifo ReadTask

/-! ## A task that is cancelled too early -/

namespace ReadTask

variable {F : Type} [DecidableEq F] {kit : FrameKit F} {script : Bytes} {t t' : ReadTask F}

/-- Everything was read and no data is in hand. -/
def drained (kit : FrameKit F) (t : ReadTask F) : Bool :=
  t.input = [] && bytesOf kit t.hand = []

/-- A task that is through has read and sent everything. -/
def Emptied (kit : FrameKit F) (t : ReadTask F) : Prop :=
  t.pc = .finished → t.input = [] ∧ bytesOf kit t.sent = t.read

/-- A task whose last step was calm, and no cancellation before it is drained,
    has emptied its socket. -/
theorem emptied_of_step (hcalm : t.Calm kit) (hinv : Inv kit script t)
    {l : TaskLabel F} (hl : l.calm = true) (hlate : l = .cancel → t.drained kit = true)
    (hs : t.step kit l = some t') : Emptied kit t' := by
  have hcalm' := hcalm.step hinv hl hs
  have hinv' := hinv.step hs
  cases step_iff.mp hs with
  | readErr _ => cases hl
  | sendFail _ => cases hl
  | read _ _ _ _ | eof _ _ =>
    intro hpc
    cases hpc
  | @send frame last hpc =>
    intro hfinished
    -- the last frame of a calm task is its half-close
    have hmem : kit.halfClose ∈ t.sent ++ [frame] := by
      rcases hinv.in_hand frame last hpc with ⟨rfl, -⟩ | ⟨-, rfl, -⟩ | ⟨-, reason, hreason⟩
      · cases hfinished
      · simp
      · rcases hcalm'.frames frame (by simp) with hhalf | ⟨bs, hbs⟩
        · exact absurd (hhalf.symm.trans hreason) (kit.halfClose_ne_reset reason)
        · exact absurd (hreason.symm.trans hbs) (kit.reset_ne_data reason bs)
    obtain ⟨heof, hall⟩ := hinv'.half_close hmem
    exact ⟨hinv'.eof_input heof, hall⟩
  | cancel _ _ hrunning =>
    -- an abort that is late finds nothing left to read or to send
    have hdrained := hlate rfl
    simp only [drained, Bool.and_eq_true, decide_eq_true_eq] at hdrained
    have hheld := hinv.held hrunning
    rw [bytesOf_append, hdrained.2, List.append_nil] at hheld
    intro _
    exact ⟨hdrained.1, hheld⟩

/-- A task that was cancelled before it was drained has not sent everything. -/
theorem cancelled_early (hinv : Inv kit script t) (hearly : t.drained kit = false)
    (hs : t.step kit .cancel = some t') :
    t'.pc = .finished ∧ bytesOf kit t'.sent ≠ script := by
  cases step_iff.mp hs with
  | cancel _ _ hpc =>
    refine ⟨rfl, fun hall => ?_⟩
    have hheld := hinv.held hpc
    have hsplit := hinv.script_split
    rw [bytesOf_append] at hheld
    rw [← hheld, ← hall] at hsplit
    -- by length, nothing is in hand and nothing is left to read
    have hlen := congrArg List.length hsplit
    simp only [List.length_append] at hlen
    have hinput : t.input = [] := List.length_eq_zero_iff.mp (by omega)
    have hhand : bytesOf kit t.hand = [] := List.length_eq_zero_iff.mp (by omega)
    simp [drained, hinput, hhand] at hearly

end ReadTask

/-! ## The condition on a run -/

/-- The client's task is cancelled only once it is drained. -/
def TunnelLabel.late (s : TunnelState) : TunnelLabel → Bool
  | .client (.task .cancel) => s.client.task.drained clientKit
  | _ => true

namespace TunnelState

variable {setup : TunnelSetup} {s s' : TunnelState}

/-- The calm runs that meet the condition at every step. -/
abbrev lateSystem (setup : TunnelSetup) : Lts.System TunnelState TunnelLabel :=
  (calmSystem setup).restrict fun s l => l.late s = true

/-! ## With the condition everything is delivered -/

/-- A client step that meets the condition lets the task empty its socket: the
    main loop does not touch what the task has read and sent. -/
theorem emptied_client (hem : s.client.task.Emptied clientKit) (hcalm : Calm setup s)
    {l : ClientLabel} (hl : l.calm = true) (hlate : (TunnelLabel.client l).late s = true)
    (hs : s.client.step setup.target l = some s'.client) :
    s'.client.task.Emptied clientKit := by
  rcases (ClientState.step_effect hs).task with ⟨tl, rfl, ht⟩ | heq | heq | ⟨-, heq⟩
  · refine ReadTask.emptied_of_step hcalm.client.task hcalm.inv.client.task hl ?_ ht
    rintro rfl
    exact hlate
  · rw [heq]
    exact hem
  · intro hpc
    rw [heq, ReadTask.abort_pc] at hpc
    rw [heq, ReadTask.abort_input, ReadTask.abort_sent, ReadTask.abort_read]
    exact hem hpc
  · intro hpc
    rw [heq] at hpc
    cases hpc

/-- A run that meets the condition empties the local socket. -/
theorem emptied_of_reachable (hr : (lateSystem setup).Reachable s) :
    s.client.task.Emptied clientKit := by
  refine Lts.System.invariant_of_reachable (lateSystem setup)
    (fun s => s.client.task.Emptied clientKit) ?_ ?_ s hr
  · rintro s rfl hpc
    cases hpc
  · intro s l s' hr hem hs
    have hcalm := calm_of_reachable hr.of_restrict
    obtain ⟨hlate, hs⟩ := Lts.System.restrict_step_iff.mp hs
    obtain ⟨hl, hs⟩ := Lts.System.restrict_step_iff.mp hs
    rcases step_client hs with ⟨cl, rfl, hclient⟩ | heq
    · exact emptied_client hem hcalm hl hlate hclient
    · rw [heq]
      exact hem

/-- What a complete calm run delivers: all that the client's task sent, and all
    that the target said. -/
theorem Calm.delivered (h : Calm setup s) (hr : (system setup).Reachable s)
    (hopens : setup.Opens) (hstuck : Stuck setup s) :
    s.server.targetWritten
        = setup.target.firstPayload ++ bytesOf clientKit s.client.task.sent ∧
      s.client.localWritten = setup.targetInput := by
  obtain ⟨⟨hclient, -, hserver⟩, hall, hmem⟩ := h.complete hr hopens hstuck
  constructor
  -- the way up: all that was received is written, and all that was sent is received
  · have hwritten := h.server.over_written (by rw [hserver]; rfl)
    have hsent := h.inv.client.sent_eq
    rw [if_neg (by simp [hclient])] at hsent
    rw [hwritten, ServerState.receivedBytes, hall, hsent]
    rfl
  · have hwritten := h.inv.client.written_eq (by simp [hclient])
    rw [hclient] at hwritten
    have hpending : s.client.localWritten = s.client.receivedBytes := by
      simpa [ClientPc.pending] using hwritten
    have htask := h.half_close_sent hclient
    obtain ⟨heof, hbytes⟩ := h.inv.server.task.half_close htask
    -- the half-close that was received is the last frame of the whole stream
    obtain ⟨rest, hrest⟩ := h.inv.replied_in_order
    obtain ⟨before, after, hsplit⟩ := List.append_of_mem hmem
    have hsent := h.server_sent (by
      rw [← hrest, hsplit]
      simp)
    rw [hsent, hsplit] at hrest
    cases before with
    | nil => cases (List.cons.inj hrest).1
    | cons first before =>
      obtain ⟨rfl, htail⟩ := List.cons.inj hrest
      have htail : before ++ serverHalfClose :: (after ++ rest) = s.server.task.sent := by
        rw [← htail]
        simp
      have hlast := h.inv.server.task.half_close_last htail.symm
      obtain ⟨rfl, rfl⟩ := List.append_eq_nil_iff.mp hlast
      have hread := h.inv.server.task.read_all heof
      rw [hpending, ClientState.receivedBytes, hsplit, ← hread, ← hbytes, ← htail]
      rfl

/-! ## Without the condition something is lost -/

/-- The client's reading task is through and has not sent everything. -/
def Lost (setup : TunnelSetup) (s : TunnelState) : Prop :=
  s.client.task.pc = .finished ∧ bytesOf clientKit s.client.task.sent ≠ setup.localInput

/-- A task that is cancelled early loses something. -/
theorem lost_of_early (hr : (system setup).Reachable s) {l : TunnelLabel}
    (hs : s.step setup l = some s') (hearly : ¬ l.late s = true) : Lost setup s' := by
  have h := inv_of_reachable hr
  unfold TunnelLabel.late at hearly
  split at hearly
  · obtain ⟨-, hclient, -⟩ := client_step hs
    simp only [ClientState.step, Option.map_eq_some_iff] at hclient
    obtain ⟨t, ht, hclient⟩ := hclient
    have hlost := ReadTask.cancelled_early h.client.task (by simpa using hearly) ht
    rw [Lost, ← hclient]
    exact hlost
  · exact absurd rfl hearly

/-- What is lost stays lost: the task takes no step any more. -/
theorem Lost.step (h : Lost setup s) (hr : (system setup).Reachable s) {l : TunnelLabel}
    (hs : s.step setup l = some s') : Lost setup s' := by
  obtain ⟨hpc, hsent⟩ := h
  have hinv := inv_of_reachable hr
  rcases step_client hs with ⟨cl, rfl, hclient⟩ | heq
  · rcases (ClientState.step_effect hclient).task with ⟨tl, -, ht⟩ | heq | heq | ⟨hmain, -⟩
    · rw [ReadTask.step_stuck (.inr hpc)] at ht
      cases ht
    · rw [Lost, heq]
      exact ⟨hpc, hsent⟩
    · rw [Lost, heq, ReadTask.abort_pc, ReadTask.abort_sent]
      exact ⟨hpc, hsent⟩
    · have hidle := (hinv.client.not_spawned (by rw [hmain]; rfl)).1
      rw [hpc] at hidle
      cases hidle
  · rw [Lost, heq]
    exact ⟨hpc, hsent⟩

/-- Every calm run meets the condition, or loses something. -/
theorem late_or_lost {ls : List TunnelLabel}
    (hrun : (calmSystem setup).run (fresh setup) ls = some s) :
    (lateSystem setup).run (fresh setup) ls = some s ∨ Lost setup s := by
  refine Lts.System.run_restrict_or ?_ ?_ (.init rfl) hrun
  · intro s l s' hr hs hearly
    exact lost_of_early hr.of_restrict (Lts.System.restrict_step_iff.mp hs).2 hearly
  · intro s l s' hr hs hlost
    exact hlost.step hr.of_restrict (Lts.System.restrict_step_iff.mp hs).2

/-! ## The main result -/

/-- Both sides got all that the other side sent, which is what every complete
    run of the direct relay gives them. -/
def SameAsDirect (setup : TunnelSetup) (s : TunnelState) : Prop :=
  (s.server.targetWritten = setup.target.firstPayload ++ setup.localInput ∧
      s.client.localWritten = setup.targetInput) ∧
    ∀ d, (DirectState.calm setup.target.firstPayload setup.localInput
        setup.targetInput).Reachable d →
      (DirectState.calm setup.target.firstPayload setup.localInput
        setup.targetInput).Quiescent d →
      s.server.targetWritten = d.targetWritten ∧ s.client.localWritten = d.localWritten

/-- A complete run that meets the condition delivers everything. -/
theorem late_delivered (hopens : setup.Opens) (hr : (lateSystem setup).Reachable s)
    (hstuck : Stuck setup s) :
    s.server.targetWritten = setup.target.firstPayload ++ setup.localInput ∧
      s.client.localWritten = setup.targetInput := by
  have hcalm := calm_of_reachable hr.of_restrict
  obtain ⟨hup, hdown⟩ := hcalm.delivered hr.of_restrict.of_restrict hopens hstuck
  obtain ⟨⟨-, hfinished, -⟩, -⟩ := hcalm.complete hr.of_restrict.of_restrict hopens hstuck
  obtain ⟨hinput, hall⟩ := emptied_of_reachable hr hfinished
  have hread := hcalm.inv.client.task.script_split
  rw [hinput, List.append_nil] at hread
  rw [hall, hread] at hup
  exact ⟨hup, hdown⟩

/-- There is such a run: whatever the two sides say, a tunnel that opens can
    deliver all of it. -/
theorem exists_delivered (hopens : setup.Opens) :
    ∃ s, (system setup).Reachable s ∧
      s.server.targetWritten = setup.target.firstPayload ++ setup.localInput ∧
      s.client.localWritten = setup.targetInput := by
  have hterm : (lateSystem setup).Terminates := ((terminates setup).restrict _).restrict _
  obtain ⟨ls, s, hrun, hq⟩ := hterm.exists_quiescent (.init rfl)
  have hr : (lateSystem setup).Reachable s := Lts.System.reachable_of_run (.init rfl) hrun
  have hstuck : Stuck setup s := by
    intro l hl hcancel
    have hlate : l.late s = true := by
      unfold TunnelLabel.late
      split
      · exact absurd rfl hcancel
      · rfl
    exact Lts.System.restrict_step_none (Lts.System.restrict_step_none (hq l) hlate) hl
  exact ⟨s, hr.of_restrict.of_restrict, late_delivered hopens hr hstuck⟩

/-- **Half-close, exactly**: a complete run without faults delivers what the
    direct relay delivers if and only if the client's reading task is never
    cancelled before it is drained. -/
theorem half_close_exact (hopens : setup.Opens) {ls : List TunnelLabel}
    (hrun : (calmSystem setup).run (fresh setup) ls = some s)
    (hq : (calmSystem setup).Quiescent s) :
    SameAsDirect setup s ↔ (lateSystem setup).run (fresh setup) ls = some s := by
  have hr := Lts.System.reachable_of_run (.init rfl) hrun
  have hcalm := calm_of_reachable hr
  have hstuck : Stuck setup s := by
    intro l hl _
    exact Lts.System.restrict_step_none (hq l) hl
  obtain ⟨hup, hdown⟩ := hcalm.delivered hr.of_restrict hopens hstuck
  constructor
  · intro hsame
    -- where an abort came early, some of the upload is missing at the target
    rcases late_or_lost hrun with hlate | ⟨-, hlost⟩
    · exact hlate
    · rw [hsame.1.1] at hup
      exact absurd (List.append_cancel_left hup).symm hlost
  · intro hlate
    have hlater : (lateSystem setup).Reachable s :=
      Lts.System.reachable_of_run (.init rfl) hlate
    obtain ⟨hup, hdown⟩ := late_delivered hopens hlater hstuck
    refine ⟨⟨hup, hdown⟩, fun d hd hdq => ?_⟩
    obtain ⟨-, htarget, hlocal⟩ := DirectState.calm_complete hd hdq
    rw [hup, hdown, htarget, hlocal]
    exact ⟨rfl, rfl⟩

/-- All four activities are through, the way up has ended and the way down was
    let go. -/
def isOver (s : TunnelState) : Bool :=
  s.client.main = .returned none && s.client.task.pc = .finished &&
    s.server.main = .returned .clientClosed && s.server.task.pc = .finished &&
    s.cq.queue = [] && s.c2s.status = .ended && s.sq.queue = [] && s.sq.status = .failed &&
    s.s2c.status = .failed

/-- Then a calm run is complete. -/
theorem quiescent_of_isOver (h : s.isOver = true) : (calmSystem setup).Quiescent s := by
  simp only [isOver, Bool.and_eq_true, decide_eq_true_eq] at h
  obtain ⟨⟨⟨⟨⟨⟨⟨⟨hclient, hclient'⟩, hserver⟩, hserver'⟩, hcq⟩, hc2s⟩, hsq⟩, hsqstatus⟩,
    hs2c⟩ := h
  intro l
  by_contra hsome
  obtain ⟨s', hs'⟩ := Option.ne_none_iff_exists'.mp hsome
  obtain ⟨hcalm, hs⟩ := Lts.System.restrict_step_iff.mp hs'
  cases step_iff.mp hs with
  | client _ hstep _ _ =>
    rw [ClientState.step_stuck hclient (.inr hclient')] at hstep
    cases hstep
  | server _ hstep _ _ =>
    rw [ServerState.step_stuck hserver (.inr hserver')] at hstep
    cases hstep
  | cutUp _ => cases hcalm
  | dropUp _ => cases hcalm
  -- the queues are empty and the links are over
  | pumpUp _ hpop _ =>
    rw [(Link.pop_spec hpop).1] at hcq
    cases hcq
  | pumpDown hpop _ =>
    rw [(Link.pop_spec hpop).1] at hsq
    cases hsq
  | endUp _ _ _ hfinish =>
    have hlive := (Link.finish_spec hfinish).1
    rw [hc2s] at hlive
    cases hlive
  | endDown _ _ hfinish =>
    have hlive := (Link.finish_spec hfinish).1
    rw [hs2c] at hlive
    cases hlive
  | cutDown hup => exact absurd hs2c hup
  | dropDown hup => exact absurd hsqstatus hup

end TunnelState

/-! ## Two runs -/

/-- The target speaks and closes, and the client gives the half-close to the
    local socket. -/
def exampleDownload : List TunnelLabel :=
  [.server (.task (.read [9])), .server (.task (.send (serverData [9]) false)), .pumpDown,
    .client (.recv (some (.ok (serverData [9])))), .client (.localWrite 1),
    .client .localWriteDone, .server (.task .eof),
    .server (.task (.send serverHalfClose true)), .pumpDown,
    .client (.recv (some (.ok serverHalfClose))), .client .localShutdownOk]

/-- Both streams end. -/
def exampleFinish : List TunnelLabel :=
  [.endUp, .server (.recv none), .server .shutdownDone, .endDown, .cutDown 0, .dropDown]

/-- The local side closes first. -/
def exampleLocalFirst : List TunnelLabel :=
  exampleOpen ++ exampleUpload ++ [.server (.recv (some (.ok halfCloseFrame))),
    .server .shutdownDone] ++ exampleDownload ++ exampleFinish

/-- The target closes first, while 2 and 3 are still to be read. -/
def exampleTargetFirst : List TunnelLabel :=
  exampleOpen ++ exampleDownload ++ [.client (.task .cancel)] ++ exampleFinish

theorem exampleSetup_opens : exampleSetup.Opens where
  let_in := ⟨"token".toList, rfl⟩
  admits := ⟨.ok [⟨.v4 (.new 8 8 8 8), 443⟩], [⟨.v4 (.new 8 8 8 8), 443⟩], rfl⟩

/-- When the local side closes first, the tunnel does as the direct relay. -/
theorem half_close_exact_example :
    ∃ s, (TunnelState.calmSystem exampleSetup).run (.fresh exampleSetup) exampleLocalFirst
      = some s ∧ TunnelState.SameAsDirect exampleSetup s := by
  obtain ⟨s, hrun⟩ : ∃ s, (TunnelState.calmSystem exampleSetup).run (.fresh exampleSetup)
      exampleLocalFirst = some s := ⟨_, rfl⟩
  have hover : ((TunnelState.calmSystem exampleSetup).run (.fresh exampleSetup)
      exampleLocalFirst).map TunnelState.isOver = some true := rfl
  have hlate : (TunnelState.lateSystem exampleSetup).run (.fresh exampleSetup)
      exampleLocalFirst = (TunnelState.calmSystem exampleSetup).run (.fresh exampleSetup)
        exampleLocalFirst := rfl
  rw [hrun, Option.map_some, Option.some.injEq] at hover
  rw [hrun] at hlate
  exact ⟨s, hrun, (TunnelState.half_close_exact exampleSetup_opens hrun
    (TunnelState.quiescent_of_isOver hover)).mpr hlate⟩

/-- When the target closes first, the bytes 2 and 3 never get there. -/
theorem half_close_cuts :
    ¬ ∀ setup ls s, setup.Opens →
      (TunnelState.calmSystem setup).run (.fresh setup) ls = some s →
      (TunnelState.calmSystem setup).Quiescent s → TunnelState.SameAsDirect setup s := by
  intro hclaim
  obtain ⟨s, hrun⟩ : ∃ s, (TunnelState.calmSystem exampleSetup).run (.fresh exampleSetup)
      exampleTargetFirst = some s := ⟨_, rfl⟩
  have hseen : ((TunnelState.calmSystem exampleSetup).run (.fresh exampleSetup)
      exampleTargetFirst).map (fun s => (s.isOver, s.server.targetWritten))
      = some (true, [1]) := rfl
  rw [hrun, Option.map_some, Option.some.injEq, Prod.mk.injEq] at hseen
  obtain ⟨hover, hwritten⟩ := hseen
  have hsame := (hclaim exampleSetup exampleTargetFirst s exampleSetup_opens hrun
    (TunnelState.quiescent_of_isOver hover)).1.1
  rw [hwritten] at hsame
  cases hsame

end EchProxy
