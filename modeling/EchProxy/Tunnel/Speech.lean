import EchProxy.Tunnel.Release
import EchProxy.Tunnel.ServerInv

/-! # What the Two Sides Say

    The frames each side sends, whatever it receives.  The client says `Open`
    once and first, then data, then at most one half-close or reset.  The
    server says at most one `OpenResult`, and nothing of the target's stream
    before a successful one.

    On the server two activities share the outbound queue.  The main loop
    speaks alone until it has offered its `OpenResult`; only then does the
    reading task exist.  If the queue is gone by then, nothing is sent at all.
-/

namespace EchProxy

open Server

/-! ## Kinds of frames and exits -/

/-- An `OpenResult`. -/
def ServerFrame.isOpenResult (frame : ServerFrame) : Bool :=
  match frame.payload with
  | some (.openResult _) => true
  | _ => false

/-- A frame that may follow a successful `OpenResult`. -/
def ServerFrame.isReply (frame : ServerFrame) : Bool :=
  match frame.payload with
  | some (.openResult _) | none => false
  | _ => true

/-- A frame that may be the only one. -/
def ServerFrame.isRefusal (frame : ServerFrame) : Bool :=
  match frame.payload with
  | some (.openResult result) => !result.ok
  | some (.reset _) => true
  | _ => false

theorem ServerFrame.not_reply_of_result {frame : ServerFrame}
    (hresult : frame.isOpenResult = true) : ¬ frame.isReply = true := by
  obtain ⟨payload⟩ := frame
  rcases payload with _ | (result | bytes | _ | reason | millis)
  case some.openResult => exact Bool.false_ne_true
  all_goals cases hresult

theorem ServerFrame.not_stream_of_refusal {frame : ServerFrame}
    (hrefusal : frame.isRefusal = true) : frame.isStream = false := by
  obtain ⟨payload⟩ := frame
  rcases payload with _ | (result | bytes | _ | reason | millis) <;> first | rfl | cases hrefusal

/-- The ways out before the relay loop. -/
def ServerExit.early : ServerExit → Bool
  | .openStreamError _ | .closedBeforeOpen | .openTimeout | .notOpen | .refused _
  | .firstWriteFailed _ => true
  | _ => false

/-- Before the main loop has offered its first frame. -/
def ServerPc.early : ServerPc → Bool
  | .idle | .rejected _ | .waitOpen | .resolving _ | .connecting .. | .writingFirst _
  | .openOk => true
  | .closing why => why.early
  | _ => false

/-- From the offer of `OpenResult` with `ok` on. -/
def ServerPc.late : ServerPc → Bool
  | .relaying | .writing _ | .shutting none | .pong _ => true
  | .shutting (some why) | .closing why | .returned why => !why.early
  | _ => false

/-- Every place the main loop comes to is before its first frame, after it, or the
    end after a refusal. -/
def ServerPc.Staged (main : ServerPc) : Prop :=
  main.early = true ∨ main.late = true ∨ ∃ why, main = .returned why ∧ why.early = true

/-- The exit the main loop is on its way to. -/
def ServerPc.exit : ServerPc → Option ServerExit
  | .shutting why => why
  | .closing why | .returned why => some why
  | _ => none

/-- The exits for a frame that must not come. -/
def ServerExit.unexpected : ServerExit → Bool
  | .notOpen | .unexpectedOpen | .emptyFrame => true
  | _ => false

/-- The errors for a frame that must not come. -/
def RelayError.unexpected : RelayError → Bool
  | .unexpectedFirstFrame | .duplicateOpenResult | .emptyFrame => true
  | _ => false

theorem ServerExit.early_frame {why : ServerExit} (hearly : why.early = true) {text : IpText}
    {frame : ServerFrame} (hframe : why.frame text = some frame) : frame.isRefusal = true := by
  cases why <;> cases hearly <;> cases hframe <;> rfl

theorem ServerExit.late_frame {why : ServerExit} (hlate : why.early = false) {text : IpText}
    {frame : ServerFrame} (hframe : why.frame text = some frame) : frame.isReply = true := by
  cases why <;> cases hlate <;> cases hframe <;> rfl

/-! ## What the server says -/

namespace ServerState

/-- What a step of the server does to its loop and to what it says. -/
inductive Speaks (text : IpText) (s s' : ServerState) (l : ServerLabel) : Prop where
  /-- The reading task speaks, or reads. -/
  | task {tl : TaskLabel ServerFrame} (hlabel : l = .task tl) (hmain : s'.main = s.main)
      (htask : s.task.step serverKit tl = some s'.task)
  /-- Before the first frame nothing is said. -/
  | quiet (hmain : s.main.early = true)
      (hmain' : s'.main.early = true ∨ ∃ why, s'.main = .returned why ∧ why.early = true)
      (hframes : l.frames = []) (htask : s'.task = s.task ∨ s'.task = s.task.abort)
  /-- The first frame is the last. -/
  | refuse {frame : ServerFrame} {why : ServerExit} (hmain : s.main.early = true)
      (hmain' : s'.main = .returned why) (hearly : why.early = true)
      (hframes : l.frames = [frame]) (hrefusal : frame.isRefusal = true)
      (htask : s'.task = s.task.abort)
  /-- The first frame opens the tunnel; or the queue is gone. -/
  | opens (hmain : s.main = .openOk) (hmain' : s'.main = .relaying)
      (hframes : l = .send (openResultFrame true "") ∨ l = .sendFail)
      (htask : s'.task = s.task.spawn)
  /-- The loop goes on, or ends. -/
  | late (hmain : s.main.late = true) (hmain' : s'.main.late = true)
      (hframes : ∀ frame ∈ l.frames, frame.isReply = true)
      (htask : s'.task = s.task ∨ s'.task = s.task.abort)

section speech
variable {config : ServerConfig} {metadata : MetadataMap} {text : IpText} {s s' : ServerState}
  {l : ServerLabel}

/-- Leaving before the first frame. -/
theorem speaks_leave_early (hmain : s.main.early = true) (t : ServerState) (htask : t.task = s.task)
    {why : ServerExit} (hearly : why.early = true) (hframes : l.frames = []) :
    Speaks text s (t.leave text why) l := by
  unfold leave
  split
  · exact .quiet hmain (.inl hearly) hframes (.inl htask)
  · refine .quiet hmain (.inr ⟨why, rfl, hearly⟩) hframes (.inr ?_)
    exact congrArg ReadTask.abort htask

/-- Leaving later. -/
theorem speaks_leave_late (hmain : s.main.late = true) (t : ServerState) (htask : t.task = s.task)
    {why : ServerExit} (hlate : why.early = false) (hframes : l.frames = []) :
    Speaks text s (t.leave text why) l := by
  have hnone : ∀ frame ∈ l.frames, frame.isReply = true := by
    rw [hframes]
    exact fun _ hmem => absurd hmem List.not_mem_nil
  have hlate' : (ServerPc.closing why).late = true ∧ (ServerPc.returned why).late = true := by
    simp [ServerPc.late, hlate]
  unfold leave
  split
  · exact .late hmain hlate'.1 hnone (.inl htask)
  · exact .late hmain hlate'.2 hnone (.inr (congrArg ReadTask.abort htask))

/-- A send of the main loop. -/
theorem speaks_send {frame : ServerFrame} (hout : s.outgoing text = some frame)
    (t : ServerState) (hmain : t.main = s.main) (htask : t.task = s.task)
    (hlabel : l = .send frame ∨ l = .sendFail) : Speaks text s t.afterSend l := by
  have hframes : ∀ f ∈ l.frames, f = frame := by
    rcases hlabel with rfl | rfl
    · exact fun f hf => List.mem_singleton.mp hf
    · exact fun f hf => absurd hf List.not_mem_nil
  unfold outgoing at hout
  split at hout
  · next hopen =>
    obtain rfl := Option.some.inj hout
    rw [afterSend, hmain, hopen]
    exact .opens hopen rfl hlabel (congrArg ReadTask.spawn htask)
  · next millis hpong =>
    obtain rfl := Option.some.inj hout
    rw [afterSend, hmain, hpong]
    refine .late (by rw [hpong]; rfl) rfl (fun f hf => ?_) (.inl htask)
    rw [hframes f hf]
    rfl
  · next why hclosing =>
    rw [afterSend, hmain, hclosing]
    -- the same place is before the opening or after it, by why the loop is left
    cases hearly : why.early with
    | true =>
      have hmain' : s.main.early = true := by
        rw [hclosing]
        exact hearly
      rcases hlabel with rfl | rfl
      · exact .refuse hmain' rfl hearly rfl (why.early_frame hearly hout)
          (congrArg ReadTask.abort htask)
      · exact .quiet hmain' (.inr ⟨why, rfl, hearly⟩) rfl (.inr (congrArg ReadTask.abort htask))
    | false =>
      have hlate : (ServerPc.closing why).late = true ∧ (ServerPc.returned why).late = true := by
        simp [ServerPc.late, hearly]
      refine .late (hclosing ▸ hlate.1) hlate.2 (fun f hf => ?_)
        (.inr (congrArg ReadTask.abort htask))
      rw [hframes f hf]
      exact why.late_frame hearly hout
  · cases hout

theorem speaks_onFirst (hmain : s.main = .waitOpen) (item : StreamItem ClientFrame) :
    Speaks text s ((s.note item).onFirst text item) (.recv item) := by
  have hearly : s.main.early = true := by
    rw [hmain]
    rfl
  unfold onFirst
  split
  · exact speaks_leave_early hearly (s.note _) rfl rfl rfl
  · exact speaks_leave_early hearly (s.note _) rfl rfl rfl
  · split
    · exact .quiet hearly (.inl rfl) rfl (.inl rfl)
    · exact speaks_leave_early hearly (s.note _) rfl rfl rfl

theorem speaks_onNext (hmain : s.main = .relaying) (item : StreamItem ClientFrame) :
    Speaks text s ((s.note item).onNext text item) (.recv item) := by
  have hlate : s.main.late = true := by
    rw [hmain]
    rfl
  have hgo : ∀ main : ServerPc, main.late = true →
      Speaks text s { s.note item with main := main } (.recv item) :=
    fun main hmain' => .late hlate hmain' (fun _ hf => absurd hf List.not_mem_nil) (.inl rfl)
  unfold onNext
  split
  · exact hgo _ rfl
  · exact hgo _ rfl
  · split
    · exact hgo _ rfl
    · exact hgo _ rfl
    · exact hgo _ rfl
    · exact hgo _ rfl
    · exact speaks_leave_late hlate (s.note _) rfl rfl rfl
    · exact speaks_leave_late hlate (s.note _) rfl rfl rfl

theorem speaks_onResolve {target : Open} (hmain : s.main = .resolving target)
    (answer : Except String (List SocketAddr)) :
    Speaks config.text s (s.onResolve config target answer) (.resolve answer) := by
  have hearly : s.main.early = true := by
    rw [hmain]
    rfl
  unfold onResolve
  split
  · exact .quiet hearly (.inl rfl) rfl (.inl rfl)
  · exact speaks_leave_early hearly
      { s with lookups := s.lookups ++ resolverCall config target answer } rfl rfl rfl

theorem speaks_onDial {target : Open} {addr : SocketAddr} {rest : List SocketAddr}
    {lastErr : Option String} (hmain : s.main = .connecting target (addr :: rest) lastErr)
    (outcome : DialOutcome) :
    Speaks config.text s (s.onDial config target addr rest outcome) (.dial outcome) := by
  have hearly : s.main.early = true := by
    rw [hmain]
    rfl
  unfold onDial
  split
  · split
    · exact .quiet hearly (.inl rfl) rfl (.inl rfl)
    · exact speaks_leave_early hearly (s.dialed _ _) rfl rfl rfl
  · exact .quiet hearly (.inl rfl) rfl (.inl rfl)
  · exact .quiet hearly (.inl rfl) rfl (.inl rfl)

/-- **Every step of the server is one of these.** -/
theorem step_speaks (hstaged : s.main.Staged) (hs : s.step config metadata l = some s') :
    Speaks config.text s s' l := by
  have hnone : ∀ f ∈ ([] : List ServerFrame), f.isReply = true := by
    intro f hf
    cases hf
  cases step_iff.mp hs with
  | authenticated hmain _ | rejected hmain _ =>
    exact .quiet (by rw [hmain]; rfl) (.inl rfl) rfl (.inl rfl)
  | @recvFirst item hmain => exact speaks_onFirst hmain item
  | @recvNext item hmain => exact speaks_onNext hmain item
  | openTimeout hmain | exhausted hmain | firstWriteErr hmain =>
    exact speaks_leave_early (by rw [hmain]; rfl) s rfl rfl rfl
  | idleTimeout hmain | writeErr hmain =>
    exact speaks_leave_late (by rw [hmain]; rfl) s rfl rfl rfl
  | @resolve target answer hmain => exact speaks_onResolve hmain answer
  | @dial target addr rest lastErr outcome hmain => exact speaks_onDial hmain outcome
  | firstWrite hmain _ _ => exact .quiet (by rw [hmain]; rfl) (.inl rfl) rfl (.inl rfl)
  | firstWriteDone hmain => exact .quiet (by rw [hmain]; rfl) (.inl rfl) rfl (.inl rfl)
  | write hmain _ _ => exact .late (by rw [hmain]; rfl) rfl hnone (.inl rfl)
  | writeDone hmain => exact .late (by rw [hmain]; rfl) rfl hnone (.inl rfl)
  | shutdown hmain => exact .late (by rw [hmain]; rfl) rfl hnone (.inl rfl)
  | @shutdownOut why hmain =>
    -- the invariant excludes a shutdown on an early way out
    have hlate : s.main.late = true := by
      rw [hmain] at hstaged ⊢
      rcases hstaged with hearly | hlate | ⟨_, hreturned, -⟩
      · cases hearly
      · exact hlate
      · cases hreturned
    have hwhy : why.early = false := by simpa [hmain, ServerPc.late] using hlate
    exact speaks_leave_late hlate s.shutTarget rfl hwhy rfl
  | send hout => exact speaks_send hout _ rfl rfl (.inl rfl)
  | sendFail hout =>
    obtain ⟨frame, hframe⟩ := Option.isSome_iff_exists.mp hout
    exact speaks_send hframe s rfl rfl (.inr rfl)
  | task ht => exact .task rfl rfl ht

/-! ## What has been said -/

/-- What the server has said, by where its main loop is.  `gone` says that the
    outbound queue takes nothing any more. -/
structure Said (gone : Prop) (s : ServerState) : Prop where
  staged : s.main.Staged
  quiet : s.main.early = true → s.sent = [] ∧ s.task.pc = .idle
  refused : ∀ why, s.main = .returned why → why.early = true →
    s.task.pc = .idle ∧ (s.sent = [] ∨ ∃ frame, s.sent = [frame] ∧ frame.isRefusal = true)
  opened : s.main.late = true →
    (gone ∧ s.sent = []) ∨
      ∃ rest, s.sent = openResultFrame true "" :: rest ∧ ∀ f ∈ rest, f.isReply = true

theorem ServerPc.not_early_of_late {main : ServerPc} (hlate : main.late = true) :
    main.early = false := by
  cases main <;> simp_all [ServerPc.late, ServerPc.early]

theorem Said.mono {gone gone' : Prop} (h : Said gone s) (himp : gone → gone') : Said gone' s where
  staged := h.staged
  quiet := h.quiet
  refused := h.refused
  opened := fun hlate => (h.opened hlate).imp_left fun ⟨hgone, hsent⟩ => ⟨himp hgone, hsent⟩

/-- The task's frames are replies. -/
theorem task_reply {targetInput : Bytes} (h : Inv targetInput s) {tl : TaskLabel ServerFrame}
    {t : ReadTask ServerFrame} (ht : s.task.step serverKit tl = some t) :
    ∀ f ∈ tl.frames, f.isReply = true := by
  intro f hf
  obtain ⟨last, hpc⟩ := ReadTask.step_frames ht hf
  rcases h.task.in_hand _ _ hpc with ⟨-, bs, rfl⟩ | ⟨-, rfl, -⟩ | ⟨-, reason, rfl⟩
  · rfl
  · rfl
  · rfl

/-- **Every step of the server keeps to this**, if the queue takes nothing once it
    is gone, and a send fails only then. -/
theorem Said.step {gone : Prop} {targetInput : Bytes} (h : Said gone s) (hinv : Inv targetInput s)
    (hs : s.step config metadata l = some s') (hgone : gone → l.frames = [])
    (hfail : l = .sendFail → gone) : Said gone s' := by
  have hsent := (step_effect hs).sent
  -- replies after the opening, or into the void
  have hreplies : s.main.late = true → (∀ f ∈ l.frames, f.isReply = true) →
      (gone ∧ s'.sent = []) ∨
        ∃ rest, s'.sent = openResultFrame true "" :: rest ∧ ∀ f ∈ rest, f.isReply = true := by
    intro hlate hframes
    rcases h.opened hlate with ⟨hg, hnil⟩ | ⟨rest, hrest, hall⟩
    · exact .inl ⟨hg, by rw [hsent, hnil, hgone hg]; rfl⟩
    · refine .inr ⟨rest ++ l.frames, by rw [hsent, hrest]; rfl, ?_⟩
      exact List.forall_mem_append.mpr ⟨hall, hframes⟩
  cases step_speaks h.staged hs with
  | task hlabel hmain htask =>
    have hspawned := (ReadTask.step_spawned htask).1
    refine ⟨hmain ▸ h.staged, fun hearly => ?_, fun why hreturned hearly => ?_, fun hlate => ?_⟩
    · exact absurd (h.quiet (hmain ▸ hearly)).2 hspawned
    · exact absurd (h.refused why (hmain ▸ hreturned) hearly).1 hspawned
    · refine hreplies (hmain ▸ hlate) ?_
      rw [hlabel]
      exact task_reply hinv htask
  | quiet hmain hmain' hframes htask =>
    -- before the opening nothing was sent, so what is sent here is the whole history
    obtain ⟨hnil, hidle⟩ := h.quiet hmain
    have hnil' : s'.sent = [] := by rw [hsent, hnil, hframes]; rfl
    have hidle' : s'.task.pc = .idle := by
      rcases htask with htask | htask
      · rw [htask, hidle]
      · rw [htask, ReadTask.abort_pc, hidle]
    refine ⟨?_, fun _ => ⟨hnil', hidle'⟩, fun _ _ _ => ⟨hidle', .inl hnil'⟩, fun hlate => ?_⟩
    · rcases hmain' with hearly | hreturned
      · exact .inl hearly
      · exact .inr (.inr hreturned)
    · rcases hmain' with hearly | ⟨why, hreturned, hearly⟩
      · rw [ServerPc.not_early_of_late hlate] at hearly
        cases hearly
      · rw [hreturned] at hlate
        simp [ServerPc.late, hearly] at hlate
  | @refuse frame why hmain hmain' hearly hframes hrefusal htask =>
    obtain ⟨hnil, hidle⟩ := h.quiet hmain
    have hidle' : s'.task.pc = .idle := by rw [htask, ReadTask.abort_pc, hidle]
    have hone : s'.sent = [frame] := by rw [hsent, hnil, hframes]; rfl
    refine ⟨.inr (.inr ⟨why, hmain', hearly⟩), fun hpc => ?_, fun _ _ _ => ?_, fun hlate => ?_⟩
    · rw [hmain'] at hpc
      cases hpc
    · exact ⟨hidle', .inr ⟨frame, hone, hrefusal⟩⟩
    · rw [hmain'] at hlate
      simp [ServerPc.late, hearly] at hlate
  | opens hmain hmain' hlabel htask =>
    have hnil := (h.quiet (by rw [hmain]; rfl)).1
    refine ⟨.inr (.inl (by rw [hmain']; rfl)), fun hpc => ?_, fun why hreturned => ?_, fun _ => ?_⟩
    · rw [hmain'] at hpc
      cases hpc
    · rw [hmain'] at hreturned
      cases hreturned
    -- a client that is gone does not get the `OpenResult`
    · rcases hlabel with rfl | rfl
      · exact .inr ⟨[], by rw [hsent, hnil]; rfl, fun _ hf => absurd hf List.not_mem_nil⟩
      · exact .inl ⟨hfail rfl, by rw [hsent, hnil]; rfl⟩
  | late hmain hmain' hframes htask =>
    refine ⟨.inr (.inl hmain'), fun hearly => ?_, fun why hreturned hearly => ?_, fun _ => ?_⟩
    · rw [ServerPc.not_early_of_late hmain'] at hearly
      cases hearly
    · rw [hreturned] at hmain'
      simp [ServerPc.late, hearly] at hmain'
    · exact hreplies hmain hframes

/-- What a server says: nothing, one refusal, or a successful `OpenResult` and
    then replies. -/
theorem Said.spoken {gone : Prop} (h : Said gone s) :
    s.sent = [] ∨ (∃ frame, s.sent = [frame] ∧ frame.isRefusal = true) ∨
      ∃ rest, s.sent = openResultFrame true "" :: rest ∧ ∀ f ∈ rest, f.isReply = true := by
  rcases h.staged with hearly | hlate | ⟨why, hreturned, hearly⟩
  · exact .inl (h.quiet hearly).1
  · exact (h.opened hlate).imp And.right .inr
  · exact (h.refused why hreturned hearly).2.imp_right .inl

theorem Said.one_result {gone : Prop} (h : Said gone s) :
    (s.sent.filter ServerFrame.isOpenResult).length ≤ 1 := by
  rcases h.spoken with hnil | ⟨only, hone, -⟩ | ⟨rest, hrest, hall⟩
  · simp [hnil]
  · rw [hone]
    exact List.length_filter_le _ _
  · have hnone : rest.filter ServerFrame.isOpenResult = [] := by
      rw [List.filter_eq_nil_iff]
      intro frame hmem hresult
      exact absurd (hall frame hmem) (ServerFrame.not_reply_of_result hresult)
    rw [hrest, List.filter_cons_of_pos rfl, hnone]
    exact Nat.le_refl 1

theorem Said.after_success {gone : Prop} (h : Said gone s) {before after : List ServerFrame}
    {frame : ServerFrame} (hsplit : s.sent = before ++ frame :: after)
    (hstream : frame.isStream = true) : ∃ error, openResultFrame true error ∈ before := by
  -- whatever comes first is not of the stream
  have hlater : ∀ first rest, s.sent = first :: rest → first.isStream = false →
      ∃ before', before = first :: before' := by
    intro first rest hsent hfirst
    rw [hsent] at hsplit
    cases before with
    | nil =>
      rw [← (List.cons.inj hsplit).1, hfirst] at hstream
      cases hstream
    | cons b before => exact ⟨before, by rw [(List.cons.inj hsplit).1]⟩
  rcases h.spoken with hnil | ⟨only, hone, hrefusal⟩ | ⟨rest, hrest, -⟩
  · rw [hnil] at hsplit
    exact absurd hsplit.symm (by simp)
  · obtain ⟨before', rfl⟩ := hlater only [] hone (ServerFrame.not_stream_of_refusal hrefusal)
    rw [hone] at hsplit
    exact absurd (List.cons.inj hsplit).2.symm (by simp)
  · obtain ⟨before', rfl⟩ := hlater _ rest hrest rfl
    exact ⟨"", List.mem_cons_self⟩

/-! ## What makes the server give up -/

@[simp] theorem leave_exit (t : ServerState) (why : ServerExit) :
    (t.leave text why).main.exit = some why := by
  unfold leave
  split <;> rfl

theorem afterSend_exit {t : ServerState} {why : ServerExit}
    (hexit : t.afterSend.main.exit = some why) : t.main.exit = some why := by
  unfold afterSend at hexit
  split at hexit
  · cases hexit
  · cases hexit
  · next hmain =>
    rw [hmain]
    exact hexit
  · exact hexit

/-- A way out that is not such an exit. -/
theorem not_unexpected {why why' : ServerExit} (hbad : why.unexpected = true)
    (heq : some why' = some why) (hgood : why'.unexpected = false) : False := by
  rw [Option.some.inj heq, hbad] at hgood
  cases hgood

/-- The first frame leads to such an exit if it is no `Open`. -/
theorem onFirst_unexpected {t : ServerState} {item : StreamItem ClientFrame} {why : ServerExit}
    (hbad : why.unexpected = true) (hexit : (t.onFirst text item).main.exit = some why) :
    ∃ frame : ClientFrame, item = some (.ok frame) ∧ ∀ target, frame ≠ openFrame target := by
  unfold onFirst at hexit
  split at hexit
  · exact (not_unexpected hbad (leave_exit _ _ ▸ hexit) rfl).elim
  · exact (not_unexpected hbad (leave_exit _ _ ▸ hexit) rfl).elim
  · next frame =>
    split at hexit
    · cases hexit
    · next hnot =>
      refine ⟨frame, rfl, fun target heq => ?_⟩
      exact hnot target (by rw [heq]; rfl)

/-- A later frame leads to such an exit if it is empty or an `Open`. -/
theorem onNext_unexpected {t : ServerState} {item : StreamItem ClientFrame} {why : ServerExit}
    (hbad : why.unexpected = true) (hexit : (t.onNext text item).main.exit = some why) :
    ∃ frame : ClientFrame, item = some (.ok frame) ∧
      (frame.payload = none ∨ ∃ target, frame = openFrame target) := by
  rcases item with _ | (status | ⟨payload⟩)
  · exact (not_unexpected hbad hexit rfl).elim
  · exact (not_unexpected hbad hexit rfl).elim
  · rcases payload with _ | (target | bytes | _ | reason | millis)
    · exact ⟨_, rfl, .inl rfl⟩
    · exact ⟨_, rfl, .inr ⟨target, rfl⟩⟩
    · cases hexit
    · cases hexit
    · exact (not_unexpected hbad hexit rfl).elim
    · cases hexit

/-- Only a frame that must not come leads to such an exit. -/
theorem step_unexpected (hs : s.step config metadata l = some s') {why : ServerExit}
    (hbad : why.unexpected = true) (hexit : s'.main.exit = some why) :
    s.main.exit = some why ∨ ∃ frame : ClientFrame, l = .recv (some (.ok frame)) ∧
      (s.main = .waitOpen ∧ (∀ target, frame ≠ openFrame target) ∨
        s.main = .relaying ∧ (frame.payload = none ∨ ∃ target, frame = openFrame target)) := by
  cases step_iff.mp hs with
  | @recvFirst item hmain =>
    obtain ⟨frame, rfl, hnot⟩ := onFirst_unexpected hbad hexit
    exact .inr ⟨frame, rfl, .inl ⟨hmain, hnot⟩⟩
  | @recvNext item hmain =>
    obtain ⟨frame, rfl, hframe⟩ := onNext_unexpected hbad hexit
    exact .inr ⟨frame, rfl, .inr ⟨hmain, hframe⟩⟩
  -- the reason was set before the shutdown
  | shutdownOut hmain =>
    rw [leave_exit] at hexit
    rw [hmain]
    exact .inl hexit
  | send _ =>
    have hbefore := afterSend_exit hexit
    exact .inl hbefore
  | sendFail _ => exact .inl (afterSend_exit hexit)
  | task _ => exact .inl hexit
  | openTimeout _ | idleTimeout _ | exhausted _ | firstWriteErr _ | writeErr _ =>
    rw [leave_exit] at hexit
    exact (not_unexpected hbad hexit rfl).elim
  | resolve _ =>
    unfold onResolve at hexit
    split at hexit
    · cases hexit
    · rw [leave_exit] at hexit
      exact (not_unexpected hbad hexit rfl).elim
  | dial _ =>
    unfold onDial at hexit
    split at hexit
    · split at hexit
      · cases hexit
      · rw [leave_exit] at hexit
        exact (not_unexpected hbad hexit rfl).elim
    · cases hexit
    · cases hexit
  | _ => cases hexit

end speech

end ServerState

/-! ## What the client says and hears -/

namespace ClientState

/-- The task of a client sends a stream, and the loop runs only after a first
    frame. -/
structure Heard (s : ClientState) : Prop where
  stream : ReadTask.Stream clientKit s.task.sent
  first : s.main.looping = true → s.received ≠ []

section speech
variable {target : Open} {localInput : Bytes} {s s' : ClientState} {l : ClientLabel}

theorem Heard.step (h : Heard s) (hinv : Inv target localInput s)
    (hs : s.step target l = some s') : Heard s' := by
  have hgrow : s.received ≠ [] → s'.received ≠ [] := by
    intro hne
    rw [(step_effect hs).received]
    simp [hne]
  cases step_move hs with
  | task hmain htask =>
    exact ⟨h.stream.step hinv.task htask, fun hloop => hgrow (h.first (hmain ▸ hloop))⟩
  -- on the way to the opening the loop is not entered
  | opening _ hmain' htask =>
    refine ⟨htask ▸ h.stream, fun hloop => ?_⟩
    rw [ClientPc.looping_eq_false hmain'] at hloop
    cases hloop
  | enter _ _ htask hreceived => exact ⟨by rw [htask]; exact h.stream, fun _ => hreceived⟩
  | stay hmain _ htask => exact ⟨htask ▸ h.stream, fun _ => hgrow (h.first hmain)⟩
  | finish _ hmain' htask =>
    refine ⟨by rw [htask, ReadTask.abort_sent]; exact h.stream, fun hloop => ?_⟩
    rw [hmain'] at hloop
    cases hloop
  | fail _ hmain' htask _ =>
    refine ⟨htask ▸ h.stream, fun hloop => ?_⟩
    rw [hmain'] at hloop
    cases hloop

/-- Only a frame that must not come makes the client give up on one. -/
theorem step_unexpected (hs : s.step target l = some s') {err : RelayError}
    (hbad : err.unexpected = true) (hreturned : s'.main = .returned (some err)) :
    s.main = .returned (some err) ∨ ∃ frame : ServerFrame, l = .recv (some (.ok frame)) ∧
      (s.main = .awaitOpen ∧ frame.isOpenResult = false ∧ frame.isRefusal = false ∨
        s.main = .relaying ∧ frame.isReply = false) := by
  -- an error of any other kind is not the one that is returned
  have hother : ∀ {err'}, ClientPc.returned (some err') = .returned (some err) →
      err'.unexpected = false → False := by
    intro err' heq hgood
    rw [Option.some.inj (ClientPc.returned.inj heq), hbad] at hgood
    cases hgood
  cases step_iff.mp hs with
  | @recvFirst item hmain =>
    rcases item with _ | (status | ⟨payload⟩)
    · exact (hother hreturned rfl).elim
    · exact (hother hreturned rfl).elim
    · rcases payload with _ | (result | bytes | _ | reason | millis)
      · exact .inr ⟨_, rfl, .inl ⟨hmain, rfl, rfl⟩⟩
      · simp only [onFirst] at hreturned
        split at hreturned
        · cases hreturned
        · exact (hother hreturned rfl).elim
      · exact .inr ⟨_, rfl, .inl ⟨hmain, rfl, rfl⟩⟩
      · exact .inr ⟨_, rfl, .inl ⟨hmain, rfl, rfl⟩⟩
      · exact (hother hreturned rfl).elim
      · exact .inr ⟨_, rfl, .inl ⟨hmain, rfl, rfl⟩⟩
  | @recvNext item hmain =>
    rcases item with _ | (status | ⟨payload⟩)
    · cases hreturned
    · exact (hother hreturned rfl).elim
    · rcases payload with _ | (result | bytes | _ | reason | millis)
      · exact .inr ⟨_, rfl, .inr ⟨hmain, rfl⟩⟩
      · exact .inr ⟨_, rfl, .inr ⟨hmain, rfl⟩⟩
      · cases hreturned
      · cases hreturned
      · exact (hother hreturned rfl).elim
      · exact .inl hreturned
  | badToken | callErr | localWriteErr | localShutdownErr => exact (hother hreturned rfl).elim
  | task => exact .inl hreturned
  | _ => cases hreturned

end speech

end ClientState

end EchProxy
