import EchProxy.Tunnel.Timed

/-! # Keeping a Tunnel Alive (`server/src/service.rs`)

    A client that has nothing to send can keep its tunnel open with pings.
    Every frame restarts the idle timeout, whatever it carries, and the server
    answers each `Ping` with a `Pong` of the same time, in order, among the
    data of the target.  A pong is lost only with the queue.
-/

namespace EchProxy

open Server

/-! ## Pings and pongs -/

/-- The time of a `Ping`. -/
def ClientFrame.ping? (frame : ClientFrame) : Option Int :=
  match frame.payload with
  | some (.ping unixMillis) => some unixMillis
  | _ => none

/-- The time of a `Pong`. -/
def ServerFrame.pong? (frame : ServerFrame) : Option Int :=
  match frame.payload with
  | some (.pong unixMillis) => some unixMillis
  | _ => none

/-- The pong that the loop is about to send. -/
def ServerPc.owed : ServerPc → List Int
  | .pong unixMillis => [unixMillis]
  | _ => []

namespace ServerState

/-- The pings that were received. -/
def pings (s : ServerState) : List Int := s.received.filterMap ClientFrame.ping?

/-- The pongs that the queue took, and the one to come. -/
def pongs (s : ServerState) : List Int := s.sent.filterMap ServerFrame.pong? ++ s.main.owed

section echo
variable {config : ServerConfig} {metadata : MetadataMap} {targetInput : Bytes}
  {s s' : ServerState} {l : ServerLabel}

/-- What a step hears and says of pings and pongs. -/
inductive Echoes (s : ServerState) (l : ServerLabel) (s' : ServerState) : Prop where
  /-- A ping that is heard is owed, and a pong that is said was owed. -/
  | answers (htarget : s.target ≠ none → s'.target ≠ none)
      (howed : s.main.owed ++ (l.item.elim [] StreamItem.frames).filterMap ClientFrame.ping? =
        l.frames.filterMap ServerFrame.pong? ++ s'.main.owed)
  /-- A first frame that opens no tunnel is not answered. -/
  | refuses (hframes : l.frames = []) (howed : s.main.owed = []) (howed' : s'.main.owed = [])
      (hover : s'.main.phase = .over) (htarget : s'.target = none)
  /-- The queue is gone. -/
  | drops (hlabel : l = .sendFail) (howed' : s'.main.owed = [])

theorem leave_owed (s : ServerState) (text : IpText) (why : ServerExit) :
    (s.leave text why).main.owed = [] := by
  unfold ServerState.leave
  split <;> rfl

theorem leave_target (s : ServerState) (text : IpText) (why : ServerExit) :
    (s.leave text why).target = s.target := by
  unfold ServerState.leave
  split <;> rfl

/-- A step without frames and items that leaves a loop that owes nothing. -/
theorem echoes_quiet (hitem : l.item = none) (hframes : l.frames = [])
    (htarget : s.target ≠ none → s'.target ≠ none) (howed : s.main.owed = [])
    (howed' : s'.main.owed = []) : Echoes s l s' := by
  refine .answers htarget ?_
  rw [hitem, hframes, howed, howed']
  rfl

theorem echoes_onFirst (hmain : s.main = .waitOpen) (htarget : s.target = none) (text : IpText)
    (item : StreamItem ClientFrame) :
    Echoes s (.recv item) ((s.note item).onFirst text item) := by
  have howed : s.main.owed = [] := by rw [hmain]; rfl
  have hrefuse : ∀ why, Echoes s (.recv item) ((s.note item).leave text why) := by
    intro why
    refine .refuses rfl howed (leave_owed _ _ _) (leave_phase _ _ _) ?_
    rw [leave_target]
    exact htarget
  unfold ServerState.onFirst
  split
  · exact hrefuse _
  · exact hrefuse _
  · next frame =>
    split
    · next target hpayload =>
      refine .answers id ?_
      obtain ⟨payload⟩ := frame
      obtain rfl : payload = _ := hpayload
      rw [howed]
      rfl
    · exact hrefuse _

theorem echoes_onNext (hmain : s.main = .relaying) (text : IpText) (item : StreamItem ClientFrame) :
    Echoes s (.recv item) ((s.note item).onNext text item) := by
  have howed : s.main.owed = [] := by rw [hmain]; rfl
  -- all but a ping leave nothing owed
  have hplain : ∀ t : ServerState, t.target = s.target → t.main.owed = [] →
      item.frames.filterMap ClientFrame.ping? = [] → Echoes s (.recv item) t := by
    intro t htarget howed' hping
    refine .answers (by rw [htarget]; exact id) ?_
    rw [howed, howed']
    exact hping
  have hleave : ∀ why, item.frames.filterMap ClientFrame.ping? = [] →
      Echoes s (.recv item) ((s.note item).leave text why) :=
    fun why hping => hplain _ (leave_target _ _ _) (leave_owed _ _ _) hping
  unfold ServerState.onNext
  split
  · exact hplain _ rfl rfl rfl
  · exact hplain _ rfl rfl rfl
  · next frame =>
    obtain ⟨payload⟩ := frame
    split
    · next hpayload =>
      obtain rfl : payload = _ := hpayload
      exact hplain _ rfl rfl rfl
    · next hpayload =>
      obtain rfl : payload = _ := hpayload
      exact hplain _ rfl rfl rfl
    · next hpayload =>
      obtain rfl : payload = _ := hpayload
      exact hplain _ rfl rfl rfl
    · next millis hpayload =>
      obtain rfl : payload = _ := hpayload
      refine .answers id ?_
      rw [howed]
      rfl
    · next hpayload =>
      obtain rfl : payload = _ := hpayload
      exact hleave _ rfl
    · next hpayload =>
      obtain rfl : payload = _ := hpayload
      exact hleave _ rfl

theorem echoes_onResolve {target : Open} (hmain : s.main = .resolving target)
    (config : ServerConfig) (answer : Except String (List SocketAddr)) :
    Echoes s (.resolve answer) (s.onResolve config target answer) := by
  have howed : s.main.owed = [] := by rw [hmain]; rfl
  unfold ServerState.onResolve
  split
  · exact echoes_quiet rfl rfl id howed rfl
  · exact echoes_quiet rfl rfl (by rw [leave_target]; exact id) howed (leave_owed _ _ _)

theorem echoes_onDial {target : Open} {addr : SocketAddr} {rest : List SocketAddr}
    {lastErr : Option String} (hmain : s.main = .connecting target (addr :: rest) lastErr)
    (config : ServerConfig) (outcome : DialOutcome) :
    Echoes s (.dial outcome) (s.onDial config target addr rest outcome) := by
  have howed : s.main.owed = [] := by rw [hmain]; rfl
  unfold ServerState.onDial
  split
  · split
    · exact echoes_quiet rfl rfl (fun _ => Option.some_ne_none _) howed rfl
    · exact echoes_quiet rfl rfl (by rw [leave_target]; exact id) howed (leave_owed _ _ _)
  · exact echoes_quiet rfl rfl id howed rfl
  · exact echoes_quiet rfl rfl id howed rfl

/-- After a send the loop owes nothing. -/
theorem afterSend_owed {t : ServerState} {text : IpText} {frame : ServerFrame}
    (hout : t.outgoing text = some frame) : t.afterSend.main.owed = [] := by
  unfold ServerState.afterSend
  split
  · rfl
  · rfl
  · rfl
  · next hopen hpong hclosing =>
    unfold ServerState.outgoing at hout
    split at hout
    · next hmain => exact absurd hmain hopen
    · next millis hmain => exact absurd hmain (hpong millis)
    · next why hmain => exact absurd hmain (hclosing why)
    · cases hout

/-- The pong that a send says was owed. -/
theorem outgoing_owed {text : IpText} {frame : ServerFrame}
    (hout : s.outgoing text = some frame) : [frame].filterMap ServerFrame.pong? = s.main.owed := by
  unfold ServerState.outgoing at hout
  split at hout
  · next hmain =>
    obtain rfl := Option.some.inj hout
    rw [hmain]
    rfl
  · next hmain =>
    obtain rfl := Option.some.inj hout
    rw [hmain]
    rfl
  · next why hmain =>
    rw [hmain]
    cases why <;> cases hout <;> rfl
  · cases hout

/-- **Every step echoes**, or turns a first frame away, or has lost the queue. -/
theorem step_echoes (hinv : Inv targetInput s) (hs : s.step config metadata l = some s') :
    Echoes s l s' := by
  cases step_iff.mp hs with
  | authenticated hmain _ | rejected hmain _ | firstWriteDone hmain | writeDone hmain =>
    exact echoes_quiet rfl rfl id (by rw [hmain]; rfl) rfl
  | recvFirst hmain =>
    exact echoes_onFirst hmain (hinv.no_target (.inl (by rw [hmain]; rfl))) _ _
  | recvNext hmain => exact echoes_onNext hmain _ _
  | openTimeout hmain | idleTimeout hmain | exhausted hmain | firstWriteErr hmain
  | writeErr hmain =>
    exact echoes_quiet rfl rfl (by rw [leave_target]; exact id) (by rw [hmain]; rfl)
      (leave_owed _ _ _)
  | resolve hmain => exact echoes_onResolve hmain _ _
  | dial hmain => exact echoes_onDial hmain _ _
  | firstWrite hmain _ _ | write hmain _ _ =>
    refine echoes_quiet rfl rfl ?_ (by rw [hmain]; rfl) rfl
    intro htarget hnone
    exact htarget (Option.map_eq_none_iff.mp hnone)
  | shutdown hmain =>
    refine echoes_quiet rfl rfl ?_ (by rw [hmain]; rfl) rfl
    intro htarget hnone
    exact htarget ((shutTarget_eq_none s).mp hnone)
  | shutdownOut hmain =>
    refine echoes_quiet rfl rfl ?_ (by rw [hmain]; rfl) (leave_owed _ _ _)
    intro htarget hnone
    rw [leave_target] at hnone
    exact htarget ((shutTarget_eq_none s).mp hnone)
  | @send frame hout =>
    refine .answers ?_ ?_
    · obtain ⟨main, task, heq, -⟩ := afterSend_eq { s with sent := s.sent ++ [frame] }
      rw [heq]
      exact id
    · have howed' : (afterSend { s with sent := s.sent ++ [frame] }).main.owed = [] :=
        afterSend_owed (t := { s with sent := s.sent ++ [frame] }) hout
      rw [howed', List.append_nil]
      exact (List.append_nil _).trans (outgoing_owed hout).symm
  | sendFail hout =>
    obtain ⟨frame, hframe⟩ := Option.isSome_iff_exists.mp hout
    exact .drops rfl (afterSend_owed hframe)
  | @task tl t ht =>
    refine .answers id ?_
    -- the frames of the target are no pongs
    have hnone : tl.frames.filterMap ServerFrame.pong? = [] := by
      rw [List.filterMap_eq_nil_iff]
      intro f hf
      obtain ⟨last, hpc⟩ := ReadTask.step_frames ht hf
      rcases hinv.task.in_hand _ _ hpc with ⟨-, bs, rfl⟩ | ⟨-, rfl, -⟩ | ⟨-, reason, rfl⟩ <;> rfl
    change s.main.owed ++ [] = tl.frames.filterMap ServerFrame.pong? ++ s.main.owed
    rw [hnone, List.append_nil]
    rfl

/-- Only answers, in order: nothing is echoed twice, and nothing that was not
    asked. -/
theorem echo_step (hinv : Inv targetInput s) (h : s.pongs.Sublist s.pings)
    (hs : s.step config metadata l = some s') : s'.pongs.Sublist s'.pings := by
  have heffect := step_effect hs
  rw [pongs, pings, heffect.sent, heffect.received, List.filterMap_append, List.filterMap_append,
    List.append_assoc]
  rw [pongs, pings] at h
  cases step_echoes hinv hs with
  | answers _ howed =>
    rw [← howed, ← List.append_assoc]
    exact h.append_right _
  | refuses hframes howed howed' _ _ =>
    rw [hframes, howed']
    rw [howed] at h
    exact h.trans (List.sublist_append_left _ _)
  | drops hlabel howed' =>
    rw [howed', hlabel]
    refine List.Sublist.trans ?_ (h.trans (List.sublist_append_left _ _))
    exact (List.Sublist.refl _).append (List.nil_sublist _)

/-- After the end only the last frame is sent. -/
theorem over_step (hover : s.main.phase = .over) (hs : s.step config metadata l = some s') :
    s'.main.phase = .over ∧ s'.target = s.target := by
  cases step_iff.mp hs with
  | @send frame hout =>
    unfold ServerState.afterSend
    split <;> first | exact ⟨rfl, rfl⟩ | exact ⟨hover, rfl⟩ | simp_all [ServerPc.phase]
  | sendFail hout =>
    unfold ServerState.afterSend
    split <;> first | exact ⟨rfl, rfl⟩ | exact ⟨hover, rfl⟩ | simp_all [ServerPc.phase]
  | task ht => exact ⟨hover, rfl⟩
  | authenticated hmain _ | rejected hmain _ | recvFirst hmain | recvNext hmain
  | openTimeout hmain | idleTimeout hmain | resolve hmain | dial hmain | exhausted hmain
  | firstWrite hmain _ _ | write hmain _ _ | firstWriteDone hmain | writeDone hmain
  | firstWriteErr hmain | writeErr hmain | shutdown hmain | shutdownOut hmain =>
    rw [hmain] at hover
    cases hover

/-- Nothing is left unanswered of a tunnel, while the queue is there. -/
def Answered (s : ServerState) : Prop :=
  s.main.phase ≠ .over ∨ s.target ≠ none → s.pongs = s.pings

theorem Answered.step (h : Answered s) (hinv : Inv targetInput s)
    (hs : s.step config metadata l = some s') (hkept : l ≠ .sendFail) : Answered s' := by
  have heffect := step_effect hs
  intro hlive
  cases step_echoes hinv hs with
  | answers htarget howed =>
    have hbefore : s.main.phase ≠ .over ∨ s.target ≠ none := by
      by_contra hgone
      obtain ⟨hover, hnone⟩ := not_or.mp hgone
      obtain ⟨hover', hsame⟩ := over_step (not_not.mp hover) hs
      rw [hsame] at hlive
      exact hlive.elim (fun hne => hne hover') hnone
    have hsame := h hbefore
    rw [pongs, pings] at hsame
    rw [pongs, pings, heffect.sent, heffect.received, List.filterMap_append,
      List.filterMap_append, List.append_assoc, ← howed, ← List.append_assoc, hsame]
  | refuses _ _ _ hover hnone =>
    rw [hover, hnone] at hlive
    exact absurd hlive (by simp)
  | drops hlabel _ => exact absurd hlabel hkept

end echo

end ServerState

/-! ## The idle timeout -/

/-- The time that passes. -/
def elapsed : List TimedLabel → Nat
  | [] => 0
  | .tick d :: ls => d + elapsed ls
  | .server _ :: ls => elapsed ls

namespace TimedState

section keepalive
variable {config : ServerConfig} {metadata : MetadataMap} {targetInput : Bytes}
  {idleTimeout : Nat} {s s' : TimedState} {l : TimedLabel}

/-- The present wait, if there is one, began at `t` or later. -/
def WaitsSince (t : Nat) (s : TimedState) : Prop :=
  t ≤ s.now ∧ (s.server.main.waiting = true → t ≤ s.armed)

theorem WaitsSince.step {t : Nat} (h : WaitsSince t s)
    (hs : s.step config metadata idleTimeout l = some s') : WaitsSince t s' := by
  rcases step_cases hs with ⟨d, -, rfl⟩ | ⟨sl, server, -, -, rfl, -⟩
  · exact ⟨Nat.le_trans h.1 (Nat.le_add_right _ _), h.2⟩
  · refine ⟨h.1, fun hwaiting => ?_⟩
    cases hbefore : s.server.main.waiting with
    | false =>
      -- a new wait begins now
      have harmed : (s.note sl server).armed = s.now := if_pos ⟨hbefore, hwaiting⟩
      rw [harmed]
      exact h.1
    | true =>
      have harmed : (s.note sl server).armed = s.armed :=
        if_neg fun hnew => by rw [hbefore] at hnew; cases hnew.1
      rw [harmed]
      exact h.2 hbefore

theorem WaitsSince.run {t : Nat} {ls : List TimedLabel} (h : WaitsSince t s)
    (hrun : (system config metadata targetInput idleTimeout).run s ls = some s') :
    WaitsSince t s' ∧ s'.now = s.now + elapsed ls := by
  induction ls generalizing s with
  | nil =>
    rw [Lts.System.run_nil, Option.some.injEq] at hrun
    rw [← hrun]
    exact ⟨h, rfl⟩
  | cons l ls ih =>
    rw [Lts.System.run_cons, Option.bind_eq_some_iff] at hrun
    obtain ⟨s₁, hs, hrun⟩ := hrun
    have hs : s.step config metadata idleTimeout l = some s₁ := hs
    obtain ⟨hwaits, hnow⟩ := ih (h.step hs) hrun
    refine ⟨hwaits, hnow.trans ?_⟩
    rcases step_cases hs with ⟨d, rfl, rfl⟩ | ⟨sl, server, rfl, -, rfl, -⟩
    · exact Nat.add_assoc _ _ _
    · rfl

theorem leave_not_waiting (s : ServerState) (text : IpText) (why : ServerExit) :
    (s.leave text why).main.waiting = false := by
  unfold ServerState.leave
  split <;> rfl

/-- **Whatever comes in takes the loop away from its wait.** -/
theorem not_waiting_of_recv {server server' : ServerState} {item : StreamItem ClientFrame}
    (hs : server.step config metadata (.recv item) = some server') :
    server'.main.waiting = false := by
  cases ServerState.step_iff.mp hs with
  | recvFirst _ =>
    unfold ServerState.onFirst
    split
    · exact leave_not_waiting _ _ _
    · exact leave_not_waiting _ _ _
    · split
      · rfl
      · exact leave_not_waiting _ _ _
  | recvNext _ =>
    unfold ServerState.onNext
    split
    · rfl
    · rfl
    · split <;> rfl

theorem waiting_of_idleTimeout {server server' : ServerState}
    (hs : server.step config metadata .idleTimeout = some server') :
    server.main.waiting = true := by
  cases ServerState.step_iff.mp hs with
  | openTimeout hmain | idleTimeout hmain => rw [hmain]; rfl

/-- Between a frame and the end of a wait lies the whole timeout. -/
theorem elapsed_of_idle {item : StreamItem ClientFrame} {mid : List TimedLabel}
    (hrun : (system config metadata targetInput idleTimeout).run s
      (.server (.recv item) :: (mid ++ [.server .idleTimeout])) = some s') :
    idleTimeout ≤ elapsed mid := by
  rw [Lts.System.run_cons, Option.bind_eq_some_iff] at hrun
  obtain ⟨s₁, hrecv, hrun⟩ := hrun
  have hrecv : s.step config metadata idleTimeout (.server (.recv item)) = some s₁ := hrecv
  rw [Lts.System.run, List.foldlM_append] at hrun
  obtain ⟨s₂, hmid, hidle⟩ := Option.bind_eq_some_iff.mp hrun
  obtain ⟨s₃, hidle, -⟩ := Option.bind_eq_some_iff.mp hidle
  have hidle : s₂.step config metadata idleTimeout (.server .idleTimeout) = some s₃ := hidle
  -- behind the frame the loop does not wait, so the wait begins later
  have hsince : WaitsSince s₁.now s₁ := by
    rcases step_cases hrecv with ⟨d, hlabel, -⟩ | ⟨sl, server, hlabel, hserver, rfl, -⟩
    · cases hlabel
    · obtain rfl := TimedLabel.server.inj hlabel
      refine ⟨Nat.le_refl _, fun hwaiting => ?_⟩
      rw [show (s.note (.recv item) server).server = server from rfl,
        not_waiting_of_recv hserver] at hwaiting
      cases hwaiting
  obtain ⟨⟨-, hwait⟩, hnow⟩ := hsince.run hmid
  rcases step_cases hidle with ⟨d, hlabel, -⟩ | ⟨sl, server, hlabel, hserver, -, hexpired⟩
  · cases hlabel
  · obtain rfl := TimedLabel.server.inj hlabel
    have harmed := hwait (waiting_of_idleTimeout hserver)
    have hdue := hexpired rfl
    omega

/-- What a step of the server keeps, a run with the clock keeps. -/
theorem echo_run {ls : List TimedLabel} (hinv : ServerState.Inv targetInput s.server)
    (h : s.server.pongs.Sublist s.server.pings)
    (hrun : (system config metadata targetInput idleTimeout).run s ls = some s') :
    s'.server.pongs.Sublist s'.server.pings ∧
      (s.server.Answered → .server .sendFail ∉ ls → s'.server.Answered) := by
  induction ls generalizing s with
  | nil =>
    rw [Lts.System.run_nil, Option.some.injEq] at hrun
    rw [← hrun]
    exact ⟨h, fun hanswered _ => hanswered⟩
  | cons l ls ih =>
    rw [Lts.System.run_cons, Option.bind_eq_some_iff] at hrun
    obtain ⟨s₁, hs, hrun⟩ := hrun
    have hs : s.step config metadata idleTimeout l = some s₁ := hs
    rcases step_cases hs with ⟨d, rfl, rfl⟩ | ⟨sl, server, rfl, hserver, rfl, -⟩
    · obtain ⟨hsub, hexact⟩ := ih (s := { s with now := s.now + d }) hinv h hrun
      exact ⟨hsub, fun hanswered hkept => hexact hanswered fun hmem =>
        hkept (List.mem_cons_of_mem _ hmem)⟩
    · obtain ⟨hsub, hexact⟩ := ih (hinv.step hserver) (ServerState.echo_step hinv h hserver) hrun
      refine ⟨hsub, fun hanswered hkept => hexact ?_ fun hmem =>
        hkept (List.mem_cons_of_mem _ hmem)⟩
      refine hanswered.step hinv hserver ?_
      rintro rfl
      exact hkept List.mem_cons_self

/-- **A client keeps its tunnel alive by any frames**: in every run, between a
    frame of the client and the end of a later wait lies the whole idle timeout;
    the pongs of the server are answers to pings, each once and in their order;
    and as long as the queue takes the pongs, no ping of an open tunnel goes
    unanswered. -/
theorem keepalive {ls : List TimedLabel}
    (hrun : (system config metadata targetInput idleTimeout).run (fresh targetInput) ls = some s) :
    (∀ before item mid after,
      ls = before ++ .server (.recv item) :: (mid ++ .server .idleTimeout :: after) →
        idleTimeout ≤ elapsed mid) ∧
    s.server.pongs.Sublist s.server.pings ∧
    (.server .sendFail ∉ ls → s.server.target ≠ none → s.server.pongs = s.server.pings) := by
  obtain ⟨hsub, hexact⟩ := echo_run (ServerState.inv_fresh targetInput) (List.Sublist.refl _) hrun
  refine ⟨?_, hsub, fun hkept htarget => hexact (fun _ => rfl) hkept (.inr htarget)⟩
  rintro before item mid after rfl
  have hsplit : before ++ TimedLabel.server (.recv item) :: (mid ++ .server .idleTimeout :: after) =
      before ++ (.server (.recv item) :: (mid ++ [.server .idleTimeout])) ++ after := by
    simp
  rw [hsplit, Lts.System.run, List.foldlM_append, List.foldlM_append] at hrun
  obtain ⟨s₂, hrun, -⟩ := Option.bind_eq_some_iff.mp hrun
  obtain ⟨s₁, -, hrun⟩ := Option.bind_eq_some_iff.mp hrun
  exact elapsed_of_idle hrun

end keepalive

/-- After 200 units a ping, which is answered; 300 more, and the tunnel is idle. -/
def examplePing : List TimedLabel :=
  exampleOpened.map .server ++ [.tick 200, .server (.recv (some (.ok ⟨some (.ping 7)⟩))),
    .server (.send (pongFrame 7)), .tick 300, .server .idleTimeout]

theorem keepalive_ping :
    ∃ s, (system exampleServer exampleRequest [] 300).run (fresh []) examplePing = some s ∧
      s.server.pongs = [7] ∧ s.server.pongs = s.server.pings ∧
      300 ≤ elapsed [.server (.send (pongFrame 7)), .tick 300] := by
  have hseen : ((system exampleServer exampleRequest [] 300).run (fresh []) examplePing).map
      (fun s => (s.server.pongs, s.server.target.isSome)) = some ([7], true) := rfl
  obtain ⟨s, hrun, hs⟩ := Option.map_eq_some_iff.mp hseen
  obtain ⟨hpongs, htarget⟩ := Prod.mk.inj hs
  obtain ⟨helapsed, -, hexact⟩ := keepalive hrun
  refine ⟨s, hrun, hpongs, hexact ?_ ?_, ?_⟩
  · simp [examplePing, exampleOpened]
  · exact Option.ne_none_iff_isSome.mpr htarget
  · exact helapsed (exampleOpened.map .server ++ [.tick 200]) _ _ [] rfl

end TimedState

end EchProxy
