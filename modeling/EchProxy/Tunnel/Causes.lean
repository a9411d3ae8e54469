import EchProxy.Tunnel.Conformance
import EchProxy.Tunnel.ServerRelease

/-! # Where Errors Come From

    What `relay_grpc` returns an error for, and what `handle_tunnel` leaves
    its loop for, read back to the step that brought it about.  An error text
    that reaches the client is never made up on the way: it is the text of the
    policy error, the connect error or the I/O error that a step of the server
    came back with, earlier in the same run.
-/

namespace EchProxy

open Server Fifo

/-! ## The step behind an exit of the server -/

/-- The text a connect attempt leaves behind in `last_err`. -/
def DialOutcome.text (text : IpText) (addr : SocketAddr) : DialOutcome → Option String
  | .connected _ => none
  | .failed err => some err
  | .timedOut => some s!"connect to {displaySocketAddr text addr} timed out"

namespace ServerState

/-- The step `l` makes the server leave for `why`, and this is the reason. -/
inductive Causes (config : ServerConfig) (target : Open) (s : ServerState) :
    ServerLabel → ServerExit → Prop where
  | openStreamError {status : String} (hmain : s.main = .waitOpen) :
      Causes config target s (.recv (some (.error status))) (.openStreamError status)
  | closedBeforeOpen (hmain : s.main = .waitOpen) :
      Causes config target s (.recv none) .closedBeforeOpen
  | openTimeout (hmain : s.main = .waitOpen) : Causes config target s .idleTimeout .openTimeout
  | notOpen {frame : ClientFrame} (hmain : s.main = .waitOpen)
      (hnot : ∀ target, frame ≠ openFrame target) :
      Causes config target s (.recv (some (.ok frame))) .notOpen
  /-- The policy or the resolver says no to what the client asked for. -/
  | resolve {answer : Except String (List SocketAddr)} {err : PolicyError}
      (hmain : s.main = .resolving target)
      (hno : config.policy.resolveTarget config.text (fun _ _ => answer) target.targetHost
        target.targetPort = .error err) :
      Causes config target s (.resolve answer) (.refused err)
  /-- The connect succeeded, and the peer is not allowed. -/
  | peer {addr peer : SocketAddr} {rest : List SocketAddr} {lastErr : Option String}
      {err : PolicyError} (hmain : s.main = .connecting target (addr :: rest) lastErr)
      (hno : config.policy.checkConnectedAddr peer = .error err) :
      Causes config target s (.dial (.connected (some peer))) (.refused err)
  /-- Every resolved address was tried, and the text is that of the last attempt. -/
  | exhausted {addr : SocketAddr} {outcome : DialOutcome} {err : String}
      (hall : s.resolved = some (s.dials.map Prod.fst))
      (hfailed : ∀ dial ∈ s.dials, ∀ peer, dial.2 ≠ .connected peer)
      (hlast : s.dials.getLast? = some (addr, outcome))
      (htext : outcome.text config.text addr = some err) :
      Causes config target s .exhausted (.refused (.resolve err))
  | firstWrite {b : UInt8} {rest : Bytes} {err : String} (hmain : s.main = .writingFirst (b :: rest)) :
      Causes config target s (.targetWriteErr err) (.firstWriteFailed err)
  | idle (hmain : s.main = .relaying) : Causes config target s .idleTimeout .idle
  | clientClosed (hmain : s.main = .relaying) : Causes config target s (.recv none) .clientClosed
  | streamError {status : String} (hmain : s.main = .relaying) :
      Causes config target s (.recv (some (.error status))) (.streamError status)
  | targetWrite {b : UInt8} {rest : Bytes} {err : String} (hmain : s.main = .writing (b :: rest)) :
      Causes config target s (.targetWriteErr err) (.targetWriteFailed err)
  | clientReset {reason : String} (hmain : s.main = .relaying) :
      Causes config target s (.recv (some (.ok (resetFrame reason)))) .clientReset
  | unexpectedOpen {again : Open} (hmain : s.main = .relaying) :
      Causes config target s (.recv (some (.ok (openFrame again)))) .unexpectedOpen
  | emptyFrame (hmain : s.main = .relaying) :
      Causes config target s (.recv (some (.ok ⟨none⟩))) .emptyFrame

section causes
variable {config : ServerConfig} {metadata : MetadataMap} {targetInput : Bytes} {target : Open}
  {s s' : ServerState} {l : ServerLabel}

/-! ### The last connect error -/

theorem leave_ne_connecting {t : ServerState} {why : ServerExit} {rest : List SocketAddr}
    {lastErr : Option String} : (t.leave config.text why).main ≠ .connecting target rest lastErr := by
  intro hmain
  have hexit : (t.leave config.text why).main.exit = some why := leave_exit t why
  rw [hmain] at hexit
  cases hexit

theorem afterSend_connecting {t : ServerState} {rest : List SocketAddr} {lastErr : Option String}
    (hmain : t.afterSend.main = .connecting target rest lastErr) :
    t.main = .connecting target rest lastErr ∧ t.afterSend.dials = t.dials := by
  unfold afterSend at hmain ⊢
  split at hmain
  · cases hmain
  · cases hmain
  · cases hmain
  · exact ⟨hmain, rfl⟩

/-- How the loop of `connect_any` is entered, and how it goes on. -/
theorem step_connecting (hs : s.step config metadata l = some s') {rest : List SocketAddr}
    {lastErr : Option String} (hmain : s'.main = .connecting target rest lastErr) :
    (s.main = .connecting target rest lastErr ∧ s'.dials = s.dials) ∨
      (s.main = .resolving target ∧ lastErr = none ∧ s'.dials = s.dials) ∨
      ∃ addr outcome, lastErr = outcome.text config.text addr ∧
        s'.dials = s.dials ++ [(addr, outcome)] := by
  cases step_iff.mp hs with
  | @resolve wanted answer hresolving =>
    have hdials : (s.onResolve config wanted answer).dials = s.dials := by
      obtain ⟨_, _, _, _, heq, -⟩ := onResolve_eq s config wanted answer
      rw [heq]
    unfold onResolve at hmain
    split at hmain
    · obtain ⟨rfl, rfl, rfl⟩ := ServerPc.connecting.inj hmain
      exact .inr (.inl ⟨hresolving, rfl, hdials⟩)
    · exact absurd hmain leave_ne_connecting
  | @dial wanted addr left before outcome hconnecting =>
    cases outcome with
    | connected peer =>
      unfold onDial at hmain
      simp only at hmain
      split at hmain
      · cases hmain
      · exact absurd hmain leave_ne_connecting
    | failed err =>
      obtain ⟨-, -, rfl⟩ := ServerPc.connecting.inj hmain
      exact .inr (.inr ⟨addr, .failed err, rfl, rfl⟩)
    | timedOut =>
      obtain ⟨-, -, rfl⟩ := ServerPc.connecting.inj hmain
      exact .inr (.inr ⟨addr, .timedOut, rfl, rfl⟩)
  | @recvFirst item _ =>
    unfold onFirst at hmain
    split at hmain
    · exact absurd hmain leave_ne_connecting
    · exact absurd hmain leave_ne_connecting
    · split at hmain
      · cases hmain
      · exact absurd hmain leave_ne_connecting
  | @recvNext item _ =>
    unfold onNext at hmain
    split at hmain
    · cases hmain
    · cases hmain
    · split at hmain
      all_goals cases hmain
  | openTimeout _ | idleTimeout _ | exhausted _ | firstWriteErr _ | writeErr _ | shutdownOut _ =>
    exact absurd hmain leave_ne_connecting
  | send hout => exact .inl (afterSend_connecting hmain)
  | sendFail hout => exact .inl (afterSend_connecting hmain)
  | task _ => exact .inl ⟨hmain, rfl⟩
  | _ => cases hmain

/-- In the loop of `connect_any`, `last_err` is the text of the last attempt. -/
def LastErr (config : ServerConfig) (s : ServerState) : Prop :=
  ∀ target rest lastErr, s.main = .connecting target rest lastErr →
    lastErr = s.dials.getLast?.bind fun dial => dial.2.text config.text dial.1

theorem lastErr_of_reachable (hr : (system config metadata targetInput).Reachable s) :
    LastErr config s := by
  refine Lts.System.invariant_of_reachable (system config metadata targetInput) (LastErr config)
    ?_ ?_ s hr
  · rintro s rfl target rest lastErr hmain
    cases hmain
  · intro s l s' hr h hs target rest lastErr hmain
    rcases step_connecting hs hmain with
      ⟨hbefore, hdials⟩ | ⟨hresolving, rfl, hdials⟩ | ⟨addr, outcome, rfl, hdials⟩
    · rw [hdials]
      exact h target rest lastErr hbefore
    -- nothing was dialed before the loop
    · have hguarded := (inv_and_guarded hr).2
      rw [hdials, hguarded.no_dials (hguarded.resolving _ hresolving)]
      rfl
    · rw [hdials, List.getLast?_concat]
      rfl

/-! ### Every exit has its step -/

theorem causes_onFirst (hmain : s.main = .waitOpen) {item : StreamItem ClientFrame}
    {why : ServerExit} (hexit : ((s.note item).onFirst config.text item).main.exit = some why) :
    Causes config target s (.recv item) why := by
  rcases item with _ | (status | frame)
  · rw [onFirst, leave_exit] at hexit
    exact Option.some.inj hexit ▸ .closedBeforeOpen hmain
  · rw [onFirst, leave_exit] at hexit
    exact Option.some.inj hexit ▸ .openStreamError hmain
  · unfold onFirst at hexit
    simp only at hexit
    split at hexit
    · cases hexit
    · next hnot =>
      rw [leave_exit] at hexit
      refine Option.some.inj hexit ▸ .notOpen hmain fun again heq => ?_
      exact hnot again (by rw [heq]; rfl)

theorem causes_onNext (hmain : s.main = .relaying) {item : StreamItem ClientFrame}
    {why : ServerExit} (hexit : ((s.note item).onNext config.text item).main.exit = some why) :
    Causes config target s (.recv item) why := by
  rcases item with _ | (status | ⟨payload⟩)
  · exact Option.some.inj hexit ▸ .clientClosed hmain
  · exact Option.some.inj hexit ▸ .streamError hmain
  · rcases payload with _ | (again | bytes | _ | reason | millis)
    · exact Option.some.inj hexit ▸ .emptyFrame hmain
    · exact Option.some.inj hexit ▸ .unexpectedOpen hmain
    · cases hexit
    · cases hexit
    · exact Option.some.inj hexit ▸ .clientReset hmain
    · cases hexit

theorem causes_onResolve (hmain : s.main = .resolving target)
    {answer : Except String (List SocketAddr)} {why : ServerExit}
    (hexit : (s.onResolve config target answer).main.exit = some why) :
    Causes config target s (.resolve answer) why := by
  unfold onResolve at hexit
  split at hexit
  · cases hexit
  · next hno =>
    rw [leave_exit] at hexit
    exact Option.some.inj hexit ▸ .resolve hmain hno

theorem causes_onDial {addr : SocketAddr} {rest : List SocketAddr} {lastErr : Option String}
    (hmain : s.main = .connecting target (addr :: rest) lastErr) {outcome : DialOutcome}
    {why : ServerExit} (hexit : (s.onDial config target addr rest outcome).main.exit = some why) :
    Causes config target s (.dial outcome) why := by
  cases outcome with
  | failed err => cases hexit
  | timedOut => cases hexit
  | connected peer =>
    unfold onDial at hexit
    simp only at hexit
    split at hexit
    · cases hexit
    · next hno =>
      rw [leave_exit] at hexit
      -- without a peer there is nothing to refuse
      cases peer with
      | none => cases hno
      | some peer => exact Option.some.inj hexit ▸ .peer hmain hno

/-- Once all addresses are tried, there was an attempt, and its text is reported. -/
theorem causes_exhausted (hr : (system config metadata targetInput).Reachable s)
    {lastErr : Option String} (hmain : s.main = .connecting target [] lastErr) :
    Causes config target s .exhausted
      (.refused (.resolve (lastErr.getD "all target addresses failed"))) := by
  have hguarded := (inv_and_guarded hr).2
  obtain ⟨hresolved, hfailed⟩ := hguarded.connecting target [] lastErr hmain
  rw [List.append_nil] at hresolved
  -- no empty list of addresses is admitted
  obtain ⟨wanted, hadmitted⟩ := hguarded.admitted _ hresolved
  have hne : s.dials ≠ [] := by
    intro hnil
    rw [hnil] at hadmitted
    exact hadmitted.nonempty rfl
  have hlast := List.getLast?_eq_some_getLast hne
  have htext : ∃ err, (s.dials.getLast hne).2.text config.text (s.dials.getLast hne).1 = some err := by
    have hno := hfailed _ (List.getLast_mem hne)
    cases hdial : (s.dials.getLast hne).2 with
    | connected peer => exact absurd hdial (hno peer)
    | failed err => exact ⟨err, rfl⟩
    | timedOut => exact ⟨_, rfl⟩
  obtain ⟨err, htext⟩ := htext
  have herr := lastErr_of_reachable hr target [] lastErr hmain
  rw [hlast, Option.bind_some, htext] at herr
  rw [herr]
  exact .exhausted hresolved hfailed hlast htext

/-- **Every exit of the server has its step**, and the step has its reason. -/
theorem step_exit (hr : (system config metadata targetInput).Reachable s)
    (hwanted : ∀ asked, s.wanted = some asked → asked = target)
    (hs : s.step config metadata l = some s') {why : ServerExit}
    (hexit : s'.main.exit = some why) :
    s.main.exit = some why ∨ Causes config target s l why := by
  have hout : ∀ {t : ServerState} {why' : ServerExit},
      (t.leave config.text why').main.exit = some why → why' = why := by
    intro t why' hleft
    rw [leave_exit] at hleft
    exact Option.some.inj hleft
  cases step_iff.mp hs with
  | recvFirst hmain => exact .inr (causes_onFirst hmain hexit)
  | recvNext hmain => exact .inr (causes_onNext hmain hexit)
  | openTimeout hmain => exact .inr (hout hexit ▸ .openTimeout hmain)
  | idleTimeout hmain => exact .inr (hout hexit ▸ .idle hmain)
  | @resolve wanted answer hmain =>
    obtain rfl := hwanted wanted (by rw [ServerState.wanted, hmain])
    exact .inr (causes_onResolve hmain hexit)
  | @dial wanted addr rest lastErr outcome hmain =>
    obtain rfl := hwanted wanted (by rw [ServerState.wanted, hmain])
    exact .inr (causes_onDial hmain hexit)
  | @exhausted wanted lastErr hmain =>
    obtain rfl := hwanted wanted (by rw [ServerState.wanted, hmain])
    exact .inr (hout hexit ▸ causes_exhausted hr hmain)
  | firstWriteErr hmain => exact .inr (hout hexit ▸ .firstWrite hmain)
  | writeErr hmain => exact .inr (hout hexit ▸ .targetWrite hmain)
  -- the reason was there before
  | shutdownOut hmain => exact .inl (by rw [hmain, ServerPc.exit, hout hexit])
  | send _ =>
    have hbefore := afterSend_exit hexit
    exact .inl hbefore
  | sendFail _ => exact .inl (afterSend_exit hexit)
  | task _ => exact .inl hexit
  | _ => cases hexit

/-! ### Every frame has its author -/

/-- What the server has sent is its success, a pong, the reading task's, or the last
    frame before it returned. -/
def Accounts (text : IpText) (s : ServerState) : Prop :=
  ∀ frame ∈ s.sent, frame = openResultFrame true "" ∨ (∃ millis, frame = pongFrame millis) ∨
    frame ∈ s.task.sent ∨ ∃ why, s.main = .returned why ∧ why.frame text = some frame

theorem step_task_sent (hs : s.step config metadata l = some s') : s.task.sent <+: s'.task.sent := by
  rcases (step_effect hs).task with ⟨tl, -, ht⟩ | heq | heq | ⟨-, heq⟩
  · rw [ReadTask.step_sent ht]
    exact List.prefix_append _ _
  · rw [heq]
  · rw [heq, ReadTask.abort_sent]
  · rw [heq]
    exact List.prefix_rfl

/-- A server that has returned stays so. -/
theorem step_returned (hs : s.step config metadata l = some s') {why : ServerExit}
    (hmain : s.main = .returned why) : s'.main = .returned why := by
  cases step_taskMove hs with
  | own hmain' _ => exact hmain'.trans hmain
  | spawn hopen _ _ =>
    rw [hmain] at hopen
    cases hopen
  | same hnot _ _ | abort hnot _ _ => exact absurd hmain (hnot why)

theorem Accounts.step (h : Accounts config.text s) (hs : s.step config metadata l = some s') :
    Accounts config.text s' := by
  intro frame hmem
  rw [(step_effect hs).sent, List.mem_append] at hmem
  rcases hmem with hold | hnew
  · rcases h frame hold with hok | hpong | htask | ⟨why, hmain, hframe⟩
    · exact .inl hok
    · exact .inr (.inl hpong)
    · exact .inr (.inr (.inl ((step_task_sent hs).subset htask)))
    · exact .inr (.inr (.inr ⟨why, step_returned hs hmain, hframe⟩))
  · cases step_iff.mp hs with
    | @send sent hout =>
      obtain rfl := List.mem_singleton.mp hnew
      unfold outgoing at hout
      split at hout
      · exact .inl (Option.some.inj hout).symm
      · exact .inr (.inl ⟨_, (Option.some.inj hout).symm⟩)
      · next why hmain =>
        refine .inr (.inr (.inr ⟨why, ?_, hout⟩))
        rw [afterSend, hmain]
        rfl
      · cases hout
    | @task tl t ht =>
      refine .inr (.inr (.inl ?_))
      rw [ReadTask.step_sent ht]
      exact List.mem_append_right _ hnew
    | _ => cases hnew

theorem accounts_of_reachable (hr : (system config metadata targetInput).Reachable s) :
    Accounts config.text s := by
  refine Lts.System.invariant (system config metadata targetInput) (Accounts config.text) ?_ ?_ s hr
  · rintro s rfl frame hmem
    cases hmem
  · intro s l s' h hs
    exact h.step hs

/-! ### The last frame -/

theorem leave_returned {t : ServerState} {text : IpText} {why why' : ServerExit}
    (hmain : (t.leave text why').main = .returned why) : why.frame text = none := by
  unfold leave at hmain
  split at hmain
  · cases hmain
  · next hframe =>
    obtain rfl := ServerPc.returned.inj hmain
    exact hframe

/-- A server that has a last frame returns with the send of it, taken or not. -/
theorem step_last (hs : s.step config metadata l = some s') {why : ServerExit}
    {frame : ServerFrame} (hmain' : s'.main = .returned why)
    (hframe : why.frame config.text = some frame) :
    s.main = .returned why ∨ l = .send frame ∨ l = .sendFail := by
  -- no other way out has one
  have hout : ∀ {P : Prop} {t : ServerState} {why' : ServerExit},
      (t.leave config.text why').main = .returned why → P := by
    intro P t why' hleft
    rw [leave_returned hleft] at hframe
    cases hframe
  cases step_iff.mp hs with
  | recvFirst hmain =>
    unfold onFirst at hmain'
    split at hmain'
    · exact hout hmain'
    · exact hout hmain'
    · split at hmain'
      · cases hmain'
      · exact hout hmain'
  | recvNext hmain =>
    unfold onNext at hmain'
    split at hmain'
    · cases hmain'
    · cases hmain'
    · split at hmain'
      · cases hmain'
      · cases hmain'
      · cases hmain'
      · cases hmain'
      · exact hout hmain'
      · exact hout hmain'
  | resolve hmain =>
    unfold onResolve at hmain'
    split at hmain'
    · cases hmain'
    · exact hout hmain'
  | dial hmain =>
    unfold onDial at hmain'
    split at hmain'
    · split at hmain'
      · cases hmain'
      · exact hout hmain'
    · cases hmain'
    · cases hmain'
  | openTimeout | idleTimeout | exhausted | firstWriteErr | writeErr | shutdownOut =>
    exact hout hmain'
  | @send sent hsend =>
    refine .inr (.inl ?_)
    unfold outgoing at hsend
    unfold afterSend at hmain'
    split at hsend
    · next hmain =>
      rw [hmain] at hmain'
      cases hmain'
    · next hmain =>
      rw [hmain] at hmain'
      cases hmain'
    · next why' hmain =>
      rw [hmain] at hmain'
      obtain rfl := ServerPc.returned.inj hmain'
      rw [Option.some.inj (hsend.symm.trans hframe)]
    · cases hsend
  | sendFail _ => exact .inr (.inr rfl)
  | task _ => exact .inl hmain'
  | _ => cases hmain'

end causes

end ServerState

/-! ## The step behind an error of the client -/

namespace ClientState

/-- The step `l` makes the client return `err`, and this is the reason. -/
inductive Causes (s : ClientState) : ClientLabel → RelayError → Prop where
  | badToken (hmain : s.main = .preparing) : Causes s .badToken .invalidToken
  | callErr {status : String} (hmain : s.main = .calling) :
      Causes s (.callErr status) (.status status)
  | closed (hmain : s.main = .awaitOpen) : Causes s (.recv none) .closedBeforeOpenResult
  | status {status : String} (hmain : s.main = .awaitOpen ∨ s.main = .relaying) :
      Causes s (.recv (some (.error status))) (.status status)
  | refused {error : String} (hmain : s.main = .awaitOpen) :
      Causes s (.recv (some (.ok (openResultFrame false error)))) (.openRefused error)
  | openReset {reason : String} (hmain : s.main = .awaitOpen) :
      Causes s (.recv (some (.ok (serverReset reason)))) (.openReset reason)
  | reset {reason : String} (hmain : s.main = .relaying) :
      Causes s (.recv (some (.ok (serverReset reason)))) (.reset reason)
  | localWrite {b : UInt8} {rest : Bytes} {err : String} (hmain : s.main = .writing (b :: rest)) :
      Causes s (.localWriteErr err) (.localWrite err)
  | localShutdown {err : String} (hmain : s.main = .shutting) :
      Causes s (.localShutdownErr err) (.localShutdown err)

variable {target : Open} {s s' : ClientState} {l : ClientLabel}

theorem returned_inj {err err' : RelayError}
    (h : ClientPc.returned (some err) = .returned (some err')) : err = err' :=
  Option.some.inj (ClientPc.returned.inj h)

theorem causes_onFirst (hmain : s.main = .awaitOpen) {item : StreamItem ServerFrame}
    {err : RelayError} (hgood : err.unexpected = false)
    (hreturned : ((s.note item).onFirst item).main = .returned (some err)) :
    Causes s (.recv item) err := by
  rcases item with _ | (status | ⟨payload⟩)
  · exact returned_inj hreturned ▸ .closed hmain
  · exact returned_inj hreturned ▸ .status (.inl hmain)
  · rcases payload with _ | (⟨ok, error⟩ | bytes | _ | reason | millis)
    case some.openResult =>
      cases ok with
      | false => exact returned_inj hreturned ▸ .refused hmain
      | true => cases hreturned
    case some.reset => exact returned_inj hreturned ▸ .openReset hmain
    -- the other frames are unexpected
    all_goals
      obtain rfl := returned_inj hreturned
      cases hgood

theorem causes_onNext (hmain : s.main = .relaying) {item : StreamItem ServerFrame}
    {err : RelayError} (hgood : err.unexpected = false)
    (hreturned : ((s.note item).onNext item).main = .returned (some err)) :
    Causes s (.recv item) err := by
  rcases item with _ | (status | ⟨payload⟩)
  · cases hreturned
  · exact returned_inj hreturned ▸ .status (.inr hmain)
  · rcases payload with _ | (result | bytes | _ | reason | millis)
    case some.reset => exact returned_inj hreturned ▸ .reset hmain
    case some.data => cases hreturned
    case some.halfClose => cases hreturned
    case some.pong =>
      have hsame : s.main = .returned (some err) := hreturned
      rw [hmain] at hsame
      cases hsame
    all_goals
      obtain rfl := returned_inj hreturned
      cases hgood

/-- **Every error of the client has its step.** -/
theorem step_error (hs : s.step target l = some s') {err : RelayError}
    (hgood : err.unexpected = false) (hreturned : s'.main = .returned (some err)) :
    s.main = .returned (some err) ∨ Causes s l err := by
  cases step_iff.mp hs with
  | badToken hmain => exact .inr (returned_inj hreturned ▸ .badToken hmain)
  | callErr hmain => exact .inr (returned_inj hreturned ▸ .callErr hmain)
  | recvFirst hmain => exact .inr (causes_onFirst hmain hgood hreturned)
  | recvNext hmain => exact .inr (causes_onNext hmain hgood hreturned)
  | localWriteErr hmain => exact .inr (returned_inj hreturned ▸ .localWrite hmain)
  | localShutdownErr hmain => exact .inr (returned_inj hreturned ▸ .localShutdown hmain)
  | task _ => exact .inl hreturned
  | _ => cases hreturned

end ClientState

/-! ## Across the tunnel -/

/-- The client's own side, the call or the stream failed; the error is not one of the
    server's. -/
def RelayError.own : RelayError → Bool
  | .invalidToken | .status _ | .localWrite _ | .localShutdown _ => true
  | _ => false

namespace TunnelState

/-- In the run `ls` the server came to leave for `why`, and this was the step. -/
def LeftFor (setup : TunnelSetup) (ls : List TunnelLabel) (why : ServerExit) : Prop :=
  ∃ before l after s₁, ls = before ++ .server l :: after ∧
    (system setup).run (fresh setup) before = some s₁ ∧
    s₁.server.Causes setup.server setup.target l why

/-- In the run `ls` there is the reason for an error of the client. -/
inductive Founded (setup : TunnelSetup) (ls : List TunnelLabel) : RelayError → Prop where
  | own {err : RelayError} (hown : err.own = true) : Founded setup ls err
  /-- The server had no `Open` to answer, or its answer was cut off. -/
  | closed (hreason : LeftFor setup ls .closedBeforeOpen ∨ (∃ k, .cutDown k ∈ ls) ∨
      .dropDown ∈ ls) : Founded setup ls .closedBeforeOpenResult
  | refused {why : ServerExit} {error : String} (hleft : LeftFor setup ls why)
      (hframe : why.frame setup.server.text = some (openResultFrame false error)) :
      Founded setup ls (.openRefused error)
  | openReset {why : ServerExit} {reason : String} (hleft : LeftFor setup ls why)
      (hearly : why.early = true)
      (hframe : why.frame setup.server.text = some (serverReset reason)) :
      Founded setup ls (.openReset reason)
  | reset {why : ServerExit} {reason : String} (hleft : LeftFor setup ls why)
      (hlate : why.early = false)
      (hframe : why.frame setup.server.text = some (serverReset reason)) :
      Founded setup ls (.reset reason)
  /-- The server's reading task could not read the target. -/
  | targetRead {err : String} (hread : .server (.task (.readErr err)) ∈ ls) :
      Founded setup ls (.reset s!"target read failed: {err}")

section causes
variable {setup : TunnelSetup} {s s' : TunnelState} {ls : List TunnelLabel}

/-! ### The reading tasks -/

/-- A frame of the client's task that is neither data nor the half-close. -/
theorem client_read_failed (hrun : (system setup).run (fresh setup) ls = some s)
    {frame : ClientFrame} (hmem : frame ∈ s.client.task.sent)
    (hdata : ∀ bytes, frame ≠ dataFrame bytes) (hhalf : frame ≠ halfCloseFrame) :
    ∃ err, .client (.task (.readErr err)) ∈ ls ∧
      frame = resetFrame s!"local read failed: {err}" := by
  have hstep : ∀ s l s', (system setup).Reachable s → (system setup).step s l = some s' →
      frame ∈ s'.client.task.sent ++ s'.client.task.hand →
      frame ∈ s.client.task.sent ++ s.client.task.hand ∨
        ∃ err, l = .client (.task (.readErr err)) ∧ frame = clientKit.reset err := by
    intro s l s' _ hs hsaid
    rcases step_client hs with ⟨cl, rfl, hclient⟩ | heq
    · rcases (ClientState.step_effect hclient).task with
        ⟨tl, rfl, ht⟩ | heq | heq | ⟨-, heq⟩
      · rcases ReadTask.step_said ht hdata hhalf hsaid with hbefore | ⟨err, rfl, hframe⟩
        · exact .inl hbefore
        · exact .inr ⟨err, rfl, hframe⟩
      · exact .inl (heq ▸ hsaid)
      · rw [heq, ReadTask.abort_sent, ReadTask.abort_hand] at hsaid
        exact .inl hsaid
      · rw [heq, ReadTask.hand_spawn, List.append_nil] at hsaid
        exact .inl (List.mem_append_left _ hsaid)
    · exact .inl (heq ▸ hsaid)
  obtain ⟨before, l, after, -, -, rfl, -, -, err, rfl, hframe⟩ := Lts.System.run_origin hstep
    (.init rfl) hrun (fun h => by cases h) (List.mem_append_left _ hmem)
  exact ⟨err, List.mem_append_right _ List.mem_cons_self, hframe⟩

/-- A frame of the server's task that is neither data nor the half-close. -/
theorem server_read_failed (hrun : (system setup).run (fresh setup) ls = some s)
    {frame : ServerFrame} (hmem : frame ∈ s.server.task.sent)
    (hdata : ∀ bytes, frame ≠ serverData bytes) (hhalf : frame ≠ serverHalfClose) :
    ∃ err, .server (.task (.readErr err)) ∈ ls ∧
      frame = serverReset s!"target read failed: {err}" := by
  have hstep : ∀ s l s', (system setup).Reachable s → (system setup).step s l = some s' →
      frame ∈ s'.server.task.sent ++ s'.server.task.hand →
      frame ∈ s.server.task.sent ++ s.server.task.hand ∨
        ∃ err, l = .server (.task (.readErr err)) ∧ frame = serverKit.reset err := by
    intro s l s' _ hs hsaid
    rcases step_server hs with ⟨sl, rfl, hserver⟩ | heq
    · rcases (ServerState.step_effect hserver).task with
        ⟨tl, rfl, ht⟩ | heq | heq | ⟨-, heq⟩
      · rcases ReadTask.step_said ht hdata hhalf hsaid with hbefore | ⟨err, rfl, hframe⟩
        · exact .inl hbefore
        · exact .inr ⟨err, rfl, hframe⟩
      · exact .inl (heq ▸ hsaid)
      · rw [heq, ReadTask.abort_sent, ReadTask.abort_hand] at hsaid
        exact .inl hsaid
      · rw [heq, ReadTask.hand_spawn, List.append_nil] at hsaid
        exact .inl (List.mem_append_left _ hsaid)
    · exact .inl (heq ▸ hsaid)
  obtain ⟨before, l, after, -, -, rfl, -, -, err, rfl, hframe⟩ := Lts.System.run_origin hstep
    (.init rfl) hrun (fun h => by cases h) (List.mem_append_left _ hmem)
  exact ⟨err, List.mem_append_right _ List.mem_cons_self, hframe⟩

/-! ### The main loops -/

/-- A server on its way out was made to leave by a step of the run. -/
theorem leftFor_of_exit (hrun : (system setup).run (fresh setup) ls = some s) {why : ServerExit}
    (hexit : s.server.main.exit = some why) : LeftFor setup ls why := by
  have hstep : ∀ s l s', (system setup).Reachable s → (system setup).step s l = some s' →
      s'.server.main.exit = some why → s.server.main.exit = some why ∨
        ∃ sl, l = .server sl ∧ s.server.Causes setup.server setup.target sl why := by
    intro s l s' hr hs hexit'
    rcases step_server hs with ⟨sl, rfl, hserver⟩ | heq
    · have hserver' := server_reachable hr
      -- the server works on what this client asked for
      have hwanted : ∀ asked, s.server.wanted = some asked → asked = setup.target := by
        intro asked hasked
        have hhead := (ServerState.inv_and_guarded hserver').2.opened asked hasked
        exact (inv_of_reachable hr).first_frame hhead
      rcases ServerState.step_exit hserver' hwanted hserver hexit' with hbefore | hcause
      · exact .inl hbefore
      · exact .inr ⟨sl, rfl, hcause⟩
    · exact .inl (heq ▸ hexit')
  obtain ⟨before, l, after, s₁, -, rfl, hbefore, -, sl, rfl, hcause⟩ :=
    Lts.System.run_origin hstep (.init rfl) hrun (fun h => by cases h) hexit
  exact ⟨before, sl, after, s₁, rfl, hbefore, hcause⟩

/-- The first frame of the server, unless it is a success, is the last one of an
    early way out. -/
theorem returned_of_first (hr : (system setup).Reachable s) {frame : ServerFrame}
    {frames : List ServerFrame} (hsent : s.server.sent = frame :: frames)
    (hno : frame ≠ openResultFrame true "") :
    ∃ why, s.server.main = .returned why ∧ why.early = true ∧
      why.frame setup.server.text = some frame := by
  have hsaid := (talk_of_reachable hr).said
  have hnil : s.server.sent ≠ [] := by simp [hsent]
  rcases hsaid.staged with hearly | hlate | ⟨why, hreturned, hearly⟩
  · exact absurd (hsaid.quiet hearly).1 hnil
  · rcases hsaid.opened hlate with ⟨-, hempty⟩ | ⟨rest, hrest, -⟩
    · exact absurd hempty hnil
    · rw [hsent] at hrest
      exact absurd (List.cons.inj hrest).1 hno
  · obtain ⟨hidle, hone⟩ := hsaid.refused why hreturned hearly
    obtain ⟨only, hone, hrefusal⟩ := hone.resolve_left hnil
    rw [hsent] at hone
    obtain ⟨rfl, rfl⟩ := List.cons.inj hone
    have hmem : frame ∈ s.server.sent := by simp [hsent]
    -- the task does not exist, so the main loop has sent it
    rcases ServerState.accounts_of_reachable (server_reachable hr) frame hmem with
      hok | ⟨millis, rfl⟩ | htask | ⟨why', hreturned', hframe⟩
    · exact absurd hok hno
    · cases hrefusal
    · rw [((inv_of_reachable hr).server.task.not_spawned hidle).1] at htask
      cases htask
    · obtain rfl := ServerPc.returned.inj (hreturned.symm.trans hreturned')
      exact ⟨why, hreturned, hearly, hframe⟩

/-- A later reset of the server is the last frame of its loop or of its task. -/
theorem origin_of_reset (hrun : (system setup).run (fresh setup) ls = some s) {reason : String}
    {before after : List ServerFrame}
    (hsent : s.server.sent = before ++ serverReset reason :: after) (hne : before ≠ []) :
    Founded setup ls (.reset reason) := by
  have hr : (system setup).Reachable s := Lts.System.reachable_of_run (.init rfl) hrun
  have hsaid := (talk_of_reachable hr).said
  have hlate : s.server.main.late = true := by
    rcases hsaid.staged with hearly | hlate | ⟨why, hreturned, hearly⟩
    · rw [(hsaid.quiet hearly).1] at hsent
      exact absurd hsent.symm (by simp)
    · exact hlate
    -- after a refusal nothing is said
    · rcases (hsaid.refused why hreturned hearly).2 with hnil | ⟨only, hone, -⟩
      · rw [hnil] at hsent
        exact absurd hsent.symm (by simp)
      · rw [hone] at hsent
        obtain ⟨f, before', rfl⟩ := List.exists_cons_of_ne_nil hne
        exact absurd (List.cons.inj hsent).2.symm (by simp)
  have hmem : serverReset reason ∈ s.server.sent := by simp [hsent]
  rcases ServerState.accounts_of_reachable (server_reachable hr) _ hmem with
    hok | ⟨millis, hpong⟩ | htask | ⟨why, hreturned, hframe⟩
  · cases hok
  · cases hpong
  · obtain ⟨err, hread, hreason⟩ := server_read_failed hrun htask (fun _ h => by cases h)
      (fun h => by cases h)
    obtain rfl : reason = s!"target read failed: {err}" := by
      simpa [serverReset] using hreason
    exact .targetRead hread
  · refine .reset (leftFor_of_exit hrun (by rw [hreturned]; rfl)) ?_ hframe
    rw [hreturned] at hlate
    simpa [ServerPc.late] using hlate

/-! ### The end of the way down -/

/-- How the way down comes to its end: behind the last frame of the server, and
    behind what is left in its queue. -/
structure WayDown (setup : TunnelSetup) (s : TunnelState) : Prop where
  last : ∀ why frame, s.server.main = .returned why →
    why.frame setup.server.text = some frame → frame ∈ s.server.sent ∨ s.sq.status = .failed
  ended : s.s2c.status = .ended → s.serverSilent = true ∧ s.sq.queue = []

theorem WayDown.step (h : WayDown setup s) {l : TunnelLabel} (hs : s.step setup l = some s') :
    WayDown setup s' := by
  cases step_iff.mp hs with
  | client _ _ _ hs2c =>
    have hstatus := (receiveIf_spec hs2c).2.2.2
    exact ⟨h.last, fun hended => h.ended (hstatus ▸ hended)⟩
  | @server sl server sq c2s hready hserver hsq hc2s =>
    have hstatus := (Link.offer_spec hsq).1
    refine ⟨fun why frame hmain' hframe => ?_, fun hended => ?_⟩
    · have hsent := (ServerState.step_effect hserver).sent
      rcases ServerState.step_last hserver hmain' hframe with hmain | rfl | rfl
      · refine (h.last why frame hmain hframe).imp (fun hmem => ?_) (fun hgone => hstatus ▸ hgone)
        rw [hsent]
        exact List.mem_append_left _ hmem
      · refine .inl ?_
        rw [hsent]
        exact List.mem_append_right _ List.mem_cons_self
      · exact .inr (hstatus ▸ by simpa [serverReady] using hready)
    -- a server that is through takes no step
    · obtain ⟨⟨why, hmain⟩, htask⟩ := serverSilent_iff.mp (h.ended hended).1
      rw [ServerState.step_stuck hmain htask] at hserver
      cases hserver
  | pumpUp _ _ _ | endUp _ _ _ _ | cutUp _ | dropUp _ => exact ⟨h.last, h.ended⟩
  | pumpDown hpop hpush =>
    have hstatus := (Link.pop_spec hpop).2.1
    obtain ⟨-, hlive, -⟩ := Link.push_spec hpush
    refine ⟨fun why frame hmain hframe => ?_, fun hended => ?_⟩
    · exact (h.last why frame hmain hframe).imp_right fun hgone => hstatus ▸ hgone
    · rw [hlive] at hended
      cases hended
  | endDown hsilent hempty _ => exact ⟨h.last, fun _ => ⟨hsilent, hempty⟩⟩
  | cutDown _ => exact ⟨h.last, fun hended => by cases hended⟩
  | dropDown _ => exact ⟨fun _ _ _ _ => .inr rfl, fun hended => ⟨(h.ended hended).1, rfl⟩⟩

theorem wayDown_of_reachable (hr : (system setup).Reachable s) : WayDown setup s := by
  refine Lts.System.invariant (system setup) (WayDown setup) ?_ ?_ s hr
  · rintro s rfl
    exact ⟨fun _ _ h => (by cases h), fun h => by cases h⟩
  · intro s l s' h hs
    exact h.step hs

/-- Only a cut breaks the way down. -/
theorem cut_of_failed (hrun : (system setup).run (fresh setup) ls = some s)
    (hfailed : s.s2c.status = .failed) : ∃ k, .cutDown k ∈ ls := by
  have hstep : ∀ s l s', (system setup).Reachable s → (system setup).step s l = some s' →
      s'.s2c.status = .failed → s.s2c.status = .failed ∨ ∃ k, l = .cutDown k := by
    intro s l s' _ hs hfailed'
    cases step_iff.mp hs with
    | client _ _ _ hs2c => exact .inl ((receiveIf_spec hs2c).2.2.2 ▸ hfailed')
    | pumpDown _ hpush =>
      rw [(Link.push_spec hpush).2.1] at hfailed'
      cases hfailed'
    | endDown _ _ hfinish =>
      rw [(Link.finish_spec hfinish).2.1] at hfailed'
      cases hfailed'
    | @cutDown k _ => exact .inr ⟨k, rfl⟩
    | _ => exact .inl hfailed'
  obtain ⟨before, l, after, -, -, rfl, -, -, k, rfl⟩ := Lts.System.run_origin hstep
    (.init rfl) hrun (fun h => by cases h) hfailed
  exact ⟨k, List.mem_append_right _ List.mem_cons_self⟩

/-- Only the loss of the receiver breaks the queue of the server. -/
theorem drop_of_failed (hrun : (system setup).run (fresh setup) ls = some s)
    (hfailed : s.sq.status = .failed) : .dropDown ∈ ls := by
  have hstep : ∀ s l s', (system setup).Reachable s → (system setup).step s l = some s' →
      s'.sq.status = .failed → s.sq.status = .failed ∨ l = .dropDown := by
    intro s l s' _ hs hfailed'
    cases step_iff.mp hs with
    | server _ _ hsq _ => exact .inl ((Link.offer_spec hsq).1 ▸ hfailed')
    | pumpDown hpop _ => exact .inl ((Link.pop_spec hpop).2.1 ▸ hfailed')
    | dropDown _ => exact .inr rfl
    | _ => exact .inl hfailed'
  obtain ⟨before, l, after, -, -, rfl, -, -, rfl⟩ := Lts.System.run_origin hstep
    (.init rfl) hrun (fun h => by cases h) hfailed
  exact List.mem_append_right _ List.mem_cons_self

/-- A stream that ends before the first frame: the server has left without a word. -/
theorem founded_of_closed (hrun : (system setup).run (fresh setup) ls = some s)
    (hs : s.step setup (.client (.recv none)) = some s') (hmain : s.client.main = .awaitOpen) :
    Founded setup ls .closedBeforeOpenResult := by
  have hr : (system setup).Reachable s := Lts.System.reachable_of_run (.init rfl) hrun
  have hinv := inv_of_reachable hr
  have hdown := wayDown_of_reachable hr
  have hs2c := (client_step hs).2.2.2.1
  simp only [ClientLabel.item, receiveIf, receive, Option.ite_none_right_eq_some] at hs2c
  obtain ⟨⟨hempty, hover⟩, -⟩ := hs2c
  by_cases hcut : s.s2c.status = .failed
  · exact .closed (.inr (.inl (cut_of_failed hrun hcut)))
  by_cases hdrop : s.sq.status = .failed
  · exact .closed (.inr (.inr (drop_of_failed hrun hdrop)))
  have hended : s.s2c.status = .ended := by
    cases hstatus : s.s2c.status with
    | live => exact absurd hstatus hover
    | ended => rfl
    | failed => exact absurd hstatus hcut
  obtain ⟨hsilent, hdrained⟩ := hdown.ended hended
  obtain ⟨⟨why, hreturned⟩, -⟩ := serverSilent_iff.mp hsilent
  -- nothing was lost, and the client has nothing
  have hnothing : s.server.sent = [] := by
    rw [← hinv.wired.sq_sent, ← Link.taken_eq_sent hdrop hdrained, ← hinv.wired.s2c_sent,
      ← Link.taken_eq_sent hcut hempty, ← hinv.wired.client_received]
    exact (hinv.client.not_spawned (by rw [hmain]; rfl)).2
  have hframe : why.frame setup.server.text = none := by
    cases hframe : why.frame setup.server.text with
    | none => rfl
    | some frame =>
      rcases hdown.last why frame hreturned hframe with hmem | hgone
      · rw [hnothing] at hmem
        cases hmem
      · exact absurd hgone hdrop
  have hleft : LeftFor setup ls why := leftFor_of_exit hrun (by rw [hreturned]; rfl)
  have hearly : why.early = true := by
    by_contra hlate
    have hsaid := (talk_of_reachable hr).said.opened
      (by rw [hreturned, ServerPc.late]; simpa using hlate)
    rcases hsaid with ⟨hgone, -⟩ | ⟨rest, hrest, -⟩
    · exact hdrop hgone
    · rw [hnothing] at hrest
      cases hrest
  cases why with
  | closedBeforeOpen => exact .closed (.inl hleft)
  | clientClosed | clientReset => cases hearly
  | _ => cases hframe

/-- What makes the client return an error has its reason in the run before. -/
theorem founded_of_causes (hrun : (system setup).run (fresh setup) ls = some s)
    {l : ClientLabel} {err : RelayError} (hs : (system setup).step s (.client l) = some s')
    (hcause : s.client.Causes l err) : Founded setup ls err := by
  have hr : (system setup).Reachable s := Lts.System.reachable_of_run (.init rfl) hrun
  have hr' : (system setup).Reachable s' := .step hr hs
  obtain ⟨-, hclient, -, -, hsame⟩ := client_step hs
  -- what the client takes the server has sent
  have hheard : ∀ frame, l = .recv (some (.ok frame)) →
      s.client.received ++ [frame] <+: s.server.sent := by
    rintro frame rfl
    have hpre := (inv_of_reachable hr').replied_in_order
    rw [(ClientState.step_effect hclient).received, hsame] at hpre
    exact hpre
  have hfirst : ∀ frame, l = .recv (some (.ok frame)) → s.client.main = .awaitOpen →
      ∃ frames, s.server.sent = frame :: frames := by
    intro frame hl hmain
    obtain ⟨frames, hframes⟩ := hheard frame hl
    rw [((inv_of_reachable hr).client.not_spawned (by rw [hmain]; rfl)).2] at hframes
    exact ⟨frames, hframes.symm⟩
  cases hcause with
  | closed hmain => exact founded_of_closed hrun hs hmain
  | refused hmain =>
    obtain ⟨frames, hsent⟩ := hfirst _ rfl hmain
    obtain ⟨why, hreturned, -, hframe⟩ := returned_of_first hr hsent fun h => by cases h
    exact .refused (leftFor_of_exit hrun (by rw [hreturned]; rfl)) hframe
  | openReset hmain =>
    obtain ⟨frames, hsent⟩ := hfirst _ rfl hmain
    obtain ⟨why, hreturned, hearly, hframe⟩ := returned_of_first hr hsent fun h => by cases h
    exact .openReset (leftFor_of_exit hrun (by rw [hreturned]; rfl)) hearly hframe
  | reset hmain =>
    obtain ⟨after, hsent⟩ := hheard _ rfl
    rw [List.append_assoc] at hsent
    exact origin_of_reset hrun hsent.symm
      ((talk_of_reachable hr).heard.first (by rw [hmain]; rfl))
  | _ => exact .own rfl

/-- **No error is made up.**  Whatever error the client returns, a step of the run
    made it do so, and where the error speaks for the server, the server had its
    reason earlier in the run: the text is that of the exit it took, or of the read
    that failed; where its stream ends before an answer, it had no `Open` to answer,
    or the answer was cut off.  Every exit of the server goes back to a step in the
    same way, and a reset that the server takes says why a read of the local socket
    failed. -/
theorem errors_explained (hrun : (system setup).run (fresh setup) ls = some s) :
    (∀ err, s.client.main = .returned (some err) →
      ∃ before l after s₁, ls = before ++ .client l :: after ∧
        (system setup).run (fresh setup) before = some s₁ ∧ s₁.client.Causes l err ∧
        Founded setup before err) ∧
      (∀ why, s.server.main.exit = some why → LeftFor setup ls why) ∧
      ∀ before reason after,
        ls = before ++ .server (.recv (some (.ok (resetFrame reason)))) :: after →
        ∃ err, .client (.task (.readErr err)) ∈ before ∧ reason = s!"local read failed: {err}" := by
  refine ⟨fun err hreturned => ?_, fun why hexit => leftFor_of_exit hrun hexit, ?_⟩
  · have hr : (system setup).Reachable s := Lts.System.reachable_of_run (.init rfl) hrun
    have hgood : err.unexpected = false := by
      by_contra hbad
      exact (polite_of_reachable hr).client err (by simpa using hbad) hreturned
    have hstep : ∀ s l s', (system setup).Reachable s → (system setup).step s l = some s' →
        s'.client.main = .returned (some err) → s.client.main = .returned (some err) ∨
          ∃ cl, l = .client cl ∧ s.client.Causes cl err := by
      intro s l s' _ hs hreturned'
      rcases step_client hs with ⟨cl, rfl, hclient⟩ | heq
      · rcases ClientState.step_error hclient hgood hreturned' with hbefore | hcause
        · exact .inl hbefore
        · exact .inr ⟨cl, rfl, hcause⟩
      · exact .inl (heq ▸ hreturned')
    obtain ⟨before, l, after, s₁, s₂, rfl, hbefore, hs, cl, rfl, hcause⟩ :=
      Lts.System.run_origin hstep (.init rfl) hrun (fun h => by cases h) hreturned
    exact ⟨before, cl, after, s₁, rfl, hbefore, hcause, founded_of_causes hbefore hs hcause⟩
  · rintro before reason after rfl
    obtain ⟨s₁, s₂, hbefore, hs, -⟩ := Lts.System.run_split hrun
    have hr₁ : (system setup).Reachable s₁ := Lts.System.reachable_of_run (.init rfl) hbefore
    have hinv := inv_of_reachable (.step hr₁ hs)
    have hstep : s₁.step setup (.server (.recv (some (.ok (resetFrame reason))))) = some s₂ := hs
    obtain ⟨-, hserver, -, -, hsame⟩ := server_step hstep
    have hmem : resetFrame reason ∈ s₁.client.sent := by
      have hpre := hinv.received_in_order
      rw [(ServerState.step_effect hserver).received, hsame] at hpre
      exact hpre.subset (List.mem_append_right _ List.mem_cons_self)
    -- it is no `Open`, so the reading task has sent it
    rw [(inv_of_reachable hr₁).client.sent_eq] at hmem
    split at hmem
    · cases hmem
    · rcases List.mem_cons.mp hmem with hopen | htask
      · cases hopen
      · obtain ⟨err, hread, hreason⟩ := client_read_failed hbefore htask (fun _ h => by cases h)
          (fun h => by cases h)
        exact ⟨err, hread, by simpa [resetFrame] using hreason⟩

end causes

/-- A run in which the policy refuses the address the resolver gave. -/
def exampleDenied : List TunnelLabel :=
  [.client .sendOpen, .client .tokenOk, .pumpUp, .server .authenticate, .client .callOk,
    .server (.recv (some (.ok (openFrame exampleSetup.target)))),
    .server (.resolve (.ok [⟨.v4 (.new 10 0 0 9), 443⟩])),
    .server (.send (openResultFrame false "target address 10.0.0.9 is denied")), .pumpDown,
    .client (.recv (some (.ok (openResultFrame false "target address 10.0.0.9 is denied"))))]

theorem errors_explained_denied :
    ∃ before l after s₁, exampleDenied = before ++ .client l :: after ∧
      (system exampleSetup).run (fresh exampleSetup) before = some s₁ ∧
      s₁.client.Causes l (.openRefused "target address 10.0.0.9 is denied") ∧
      Founded exampleSetup before (.openRefused "target address 10.0.0.9 is denied") := by
  obtain ⟨s, hrun⟩ : ∃ s, (system exampleSetup).run (fresh exampleSetup) exampleDenied = some s :=
    ⟨_, rfl⟩
  have hseen : ((system exampleSetup).run (fresh exampleSetup) exampleDenied).map
      (fun s => s.client.main) =
        some (.returned (some (.openRefused "target address 10.0.0.9 is denied"))) := rfl
  rw [hrun, Option.map_some, Option.some.injEq] at hseen
  exact (errors_explained hrun).1 _ hseen

end TunnelState

end EchProxy
