import EchProxy.Tunnel.ServerInv

/-! # The Idle Timeout

    The server side of a tunnel with a clock.  The relay loop waits for each
    client frame under `time::timeout(idle_timeout, ..)`, so the timeout is
    started anew whenever the loop comes back to wait.  What the reading task
    forwards meanwhile does not restart it: a target that sends while the
    client is silent does not keep the tunnel open.

    A wait that has run out is followed by a `Reset`, and then by the abort of
    the reading task.  The send may have to wait for the queue, and the reading
    task goes on until then.

    The clock and the moments things happen at are histories; the loop itself
    looks only at when its present wait began.
-/

namespace EchProxy

open Server

/-! ## A server with a clock -/

/-- The `Reset` of an idle tunnel is sent: when, and what had happened by then. -/
structure Strike where
  time : Nat
  /-- When the `Data` frames of the client were received. -/
  dataAt : List Nat
  /-- When bytes of the target were forwarded. -/
  forwardedAt : List Nat
  deriving DecidableEq

/-- The server side of a tunnel, with the time. -/
structure TimedState where
  server : ServerState
  now : Nat
  /-- When the present wait for a client frame began. -/
  armed : Nat
  /-- History: when the `Data` frames of the client were received. -/
  dataAt : List Nat
  /-- History: when bytes of the target were forwarded. -/
  forwardedAt : List Nat
  /-- History: the `Reset`s of an idle tunnel. -/
  strikes : List Strike

/-- What can happen: something of the server, now, or time passes. -/
inductive TimedLabel where
  | tick (d : Nat)
  | server (l : ServerLabel)

/-- At `time::timeout(idle_timeout, inbound.next()).await`. -/
def ServerPc.waiting : ServerPc → Bool
  | .waitOpen | .relaying => true
  | _ => false

/-- The wait has run out: the tunnel is about to be reset as idle. -/
def ServerPc.idling : ServerPc → Bool
  | .closing .idle | .shutting (some .idle) => true
  | _ => false

/-- The step receives a `Data` frame. -/
def ServerLabel.receivesData : ServerLabel → Bool
  | .recv (some (.ok ⟨some (.data _)⟩)) => true
  | _ => false

/-- The step forwards bytes of the target: the queue takes a `Data` frame. -/
def ServerLabel.forwards : ServerLabel → Bool
  | .task (.send ⟨some (.data _)⟩ _) => true
  | _ => false

namespace TimedState

def fresh (targetInput : Bytes) : TimedState where
  server := .fresh targetInput
  now := 0
  armed := 0
  dataAt := []
  forwardedAt := []
  strikes := []

/-- The step sends the `Reset` of an idle tunnel; what comes back from the send is
    `break`, and with it the abort of the reading task. -/
def striking (s : TimedState) (l : ServerLabel) : Bool :=
  match l, s.server.main with
  | .send frame, .closing .idle => frame = serverReset "idle timeout"
  | _, _ => false

/-- A step of the server, noted with the time. -/
def note (s : TimedState) (l : ServerLabel) (server : ServerState) : TimedState where
  server := server
  now := s.now
  -- a new wait begins when the loop comes back to it
  armed := if s.server.main.waiting = false ∧ server.main.waiting = true then s.now else s.armed
  dataAt := if l.receivesData then s.dataAt ++ [s.now] else s.dataAt
  forwardedAt := if l.forwards then s.forwardedAt ++ [s.now] else s.forwardedAt
  strikes :=
    if s.striking l then s.strikes ++ [⟨s.now, s.dataAt, s.forwardedAt⟩] else s.strikes

/-- One step with the clock. -/
def step (config : ServerConfig) (metadata : MetadataMap) (idleTimeout : Nat) (s : TimedState) :
    TimedLabel → Option TimedState
  | .tick d => some { s with now := s.now + d }
  | .server .idleTimeout =>
    if s.armed + idleTimeout ≤ s.now then
      (s.server.step config metadata .idleTimeout).map (s.note .idleTimeout)
    else none
  | .server l => (s.server.step config metadata l).map (s.note l)

def system (config : ServerConfig) (metadata : MetadataMap) (targetInput : Bytes)
    (idleTimeout : Nat) : Lts.System TimedState TimedLabel where
  init := fun s => s = fresh targetInput
  step := step config metadata idleTimeout

/-! ## The guarantee, and where it holds -/

/-- A tunnel is reset as idle only if neither side was active in the
    `idleTimeout` up to that moment. -/
def NeverKilledActive (idleTimeout : Nat) (s : TimedState) : Prop :=
  ∀ strike ∈ s.strikes,
    (∀ t ∈ strike.dataAt, t + idleTimeout ≤ strike.time) ∧
      ∀ t ∈ strike.forwardedAt, t + idleTimeout ≤ strike.time

/-- Where a tunnel is reset as idle, nothing of the target was forwarded since the
    wait that ran out began. -/
def Undisturbed (s : TimedState) : TimedLabel → Prop
  | .server l => s.striking l = true → ∀ t ∈ s.forwardedAt, t ≤ s.armed
  | .tick _ => True

instance (s : TimedState) (l : TimedLabel) : Decidable (s.Undisturbed l) := by
  unfold Undisturbed
  split <;> infer_instance

/-- The timer fires when it is due, and the `Reset` does not have to wait for the
    queue: until it is sent, no time passes the end of the wait. -/
def Punctual (idleTimeout : Nat) (s : TimedState) : TimedLabel → Prop
  | .tick d =>
    s.server.main.waiting = true ∨ s.server.main.idling = true → s.now + d ≤ s.armed + idleTimeout
  | .server _ => True

instance (idleTimeout : Nat) (s : TimedState) (l : TimedLabel) :
    Decidable (s.Punctual idleTimeout l) := by
  unfold Punctual
  split <;> infer_instance

/-- The runs that are on time. -/
def onTime (config : ServerConfig) (metadata : MetadataMap) (targetInput : Bytes)
    (idleTimeout : Nat) : Lts.System TimedState TimedLabel :=
  (system config metadata targetInput idleTimeout).restrict (Punctual idleTimeout)

section timed
variable {config : ServerConfig} {metadata : MetadataMap} {targetInput : Bytes}
  {idleTimeout : Nat} {s s' : TimedState} {l : TimedLabel}

/-- What a step with the clock does. -/
theorem step_cases (hs : s.step config metadata idleTimeout l = some s') :
    (∃ d, l = .tick d ∧ s' = { s with now := s.now + d }) ∨
      ∃ sl server, l = .server sl ∧ s.server.step config metadata sl = some server ∧
        s' = s.note sl server ∧ (sl = .idleTimeout → s.armed + idleTimeout ≤ s.now) := by
  cases l with
  | tick d => exact .inl ⟨d, rfl, (Option.some.inj hs).symm⟩
  | server sl =>
    refine .inr ⟨sl, ?_⟩
    by_cases hidle : sl = .idleTimeout
    · subst hidle
      simp only [step, Option.ite_none_right_eq_some, Option.map_eq_some_iff] at hs
      obtain ⟨hexpired, server, hserver, rfl⟩ := hs
      exact ⟨server, rfl, hserver, rfl, fun _ => hexpired⟩
    · have hplain : s.step config metadata idleTimeout (.server sl)
          = (s.server.step config metadata sl).map (s.note sl) := by
        cases sl <;> first | rfl | exact absurd rfl hidle
      rw [hplain, Option.map_eq_some_iff] at hs
      obtain ⟨server, hserver, rfl⟩ := hs
      exact ⟨server, rfl, hserver, rfl, fun heq => absurd heq hidle⟩

/-! ## The client's side of it -/

/-- A `Data` frame takes the loop away from its wait. -/
theorem not_waiting_of_data {sl : ServerLabel} {server : ServerState}
    (hserver : s.server.step config metadata sl = some server) (hdata : sl.receivesData = true) :
    server.main.waiting = false := by
  unfold ServerLabel.receivesData at hdata
  split at hdata
  · cases ServerState.step_iff.mp hserver with
    | recvFirst hmain => rfl
    | recvNext hmain => rfl
  · cases hdata

theorem leave_idling {server : ServerState} {text : IpText} {why : ServerExit} (hne : why ≠ .idle) :
    (server.leave text why).main.idling = false := by
  unfold ServerState.leave
  split
  · cases why <;> first | rfl | exact absurd rfl hne
  · rfl

theorem afterSend_idling {server : ServerState} {text : IpText}
    (hout : (server.outgoing text).isSome = true) (t : ServerState) (hmain : t.main = server.main) :
    t.afterSend.main.idling = false := by
  unfold ServerState.outgoing at hout
  unfold ServerState.afterSend
  rw [hmain]
  split at hout
  · rfl
  · rfl
  · rfl
  · cases hout

/-- **A tunnel is about to be reset as idle only behind a wait that ran out**, and
    receives nothing from there on. -/
theorem idling_step {server server' : ServerState} {sl : ServerLabel}
    (hs : server.step config metadata sl = some server') (hidling : server'.main.idling = true) :
    (server.main.idling = true ∧ sl.receivesData = false) ∨
      (server.main = .relaying ∧ sl = .idleTimeout) := by
  -- the other ways out are for other reasons
  have hout : ∀ {P : Prop} {s : ServerState} {text : IpText} {why : ServerExit}, why ≠ .idle →
      (s.leave text why).main.idling = true → P := by
    intro P s text why hne h
    rw [leave_idling hne] at h
    cases h
  cases ServerState.step_iff.mp hs with
  | idleTimeout hmain => exact .inr ⟨hmain, rfl⟩
  | task ht => exact .inl ⟨hidling, rfl⟩
  | @shutdownOut why hmain =>
    by_cases hwhy : why = .idle
    · exact .inl ⟨by rw [hmain, hwhy]; rfl, rfl⟩
    · exact hout hwhy hidling
  | @send frame hsend =>
    have hsome : (server.outgoing config.text).isSome = true := by rw [hsend]; rfl
    rw [afterSend_idling hsome { server with sent := server.sent ++ [frame] } rfl] at hidling
    cases hidling
  | sendFail hsend =>
    rw [afterSend_idling hsend _ rfl] at hidling
    cases hidling
  | recvFirst hmain =>
    unfold ServerState.onFirst at hidling
    split at hidling
    · exact hout (by simp) hidling
    · exact hout (by simp) hidling
    · split at hidling
      · cases hidling
      · exact hout (by simp) hidling
  | recvNext hmain =>
    unfold ServerState.onNext at hidling
    split at hidling
    · cases hidling
    · cases hidling
    · split at hidling
      all_goals first | exact hout (by simp) hidling | cases hidling
  | resolve hmain =>
    unfold ServerState.onResolve at hidling
    split at hidling
    · cases hidling
    · exact hout (by simp) hidling
  | @dial target addr rest lastErr outcome hmain =>
    rcases outcome with peer | err | _
    · simp only [ServerState.onDial] at hidling
      split at hidling
      · cases hidling
      · exact hout (by simp) hidling
    · cases hidling
    · cases hidling
  | openTimeout hmain | exhausted hmain | firstWriteErr hmain | writeErr hmain =>
    exact hout (by simp) hidling
  | _ => cases hidling

/-- No `Data` frame is younger than the wait, while it goes on and after it has
    run out. -/
structure Clock (idleTimeout : Nat) (s : TimedState) : Prop where
  past : ∀ t ∈ s.dataAt, t ≤ s.now
  before_wait : s.server.main.waiting = true ∨ s.server.main.idling = true →
    ∀ t ∈ s.dataAt, t ≤ s.armed
  ran_out : s.server.main.idling = true → s.armed + idleTimeout ≤ s.now

theorem not_waiting_of_idling {pc : ServerPc} (h : pc.idling = true) : pc.waiting = false := by
  cases pc <;> first | rfl | cases h

theorem Clock.step (h : Clock idleTimeout s)
    (hs : s.step config metadata idleTimeout l = some s') : Clock idleTimeout s' := by
  -- a delay moves the clock only, so what lies in the past stays there
  rcases step_cases hs with ⟨d, -, rfl⟩ | ⟨sl, server, -, hserver, rfl, hexpired⟩
  · exact ⟨fun t ht => Nat.le_trans (h.past t ht) (Nat.le_add_right _ _), h.before_wait,
      fun hidling => Nat.le_trans (h.ran_out hidling) (Nat.le_add_right _ _)⟩
  · have hpast : ∀ t ∈ (s.note sl server).dataAt, t ≤ s.now := by
      intro t ht
      simp only [note] at ht
      split at ht
      · rcases List.mem_append.mp ht with hold | hnew
        · exact h.past t hold
        · rw [List.mem_singleton.mp hnew]
      · exact h.past t ht
    -- where the wait goes on or has run out, it began where it did
    have hkept : (s.server.main.waiting = false → server.main.waiting = false) →
        (s.note sl server).armed = s.armed := by
      intro hsame
      refine if_neg fun hnew => ?_
      rw [hsame hnew.1] at hnew
      cases hnew.2
    have hquiet : sl.receivesData = false →
        (s.server.main.waiting = true ∨ s.server.main.idling = true) →
        ∀ t ∈ (s.note sl server).dataAt, t ≤ s.armed := by
      intro hdata hwait t ht
      simp only [note, hdata, Bool.false_eq_true, if_false] at ht
      exact h.before_wait hwait t ht
    refine ⟨hpast, ?_, fun hidling => ?_⟩
    · rintro (hwaiting | hidling)
      · cases hbefore : s.server.main.waiting with
        | false =>
          have harmed : (s.note sl server).armed = s.now := if_pos ⟨hbefore, hwaiting⟩
          rw [harmed]
          exact hpast
        | true =>
          -- the wait goes on, so what came in was no data
          rw [hkept fun hnot => by rw [hbefore] at hnot; cases hnot]
          refine hquiet ?_ (.inl hbefore)
          by_contra hdata
          have hleft := not_waiting_of_data hserver (by simpa using hdata)
          rw [show server.main.waiting = true from hwaiting] at hleft
          cases hleft
      · rw [hkept fun _ => not_waiting_of_idling hidling]
        rcases idling_step hserver hidling with ⟨hbefore, hdata⟩ | ⟨hmain, rfl⟩
        · exact hquiet hdata (.inr hbefore)
        · exact hquiet rfl (.inl (by rw [hmain]; rfl))
    · rw [hkept fun _ => not_waiting_of_idling hidling]
      rcases idling_step hserver hidling with ⟨hbefore, -⟩ | ⟨-, rfl⟩
      · exact h.ran_out hbefore
      · exact hexpired rfl

theorem clock_of_reachable (hr : (system config metadata targetInput idleTimeout).Reachable s) :
    Clock idleTimeout s := by
  refine Lts.System.invariant _ (Clock idleTimeout) ?_ ?_ s hr
  · rintro s rfl
    exact ⟨fun _ ht => (by cases ht), fun _ _ ht => (by cases ht), fun h => by cases h⟩
  · intro s l s' h hs
    exact h.step hs

/-! ## The target's side of it -/

theorem striking_spec {sl : ServerLabel} (hstrike : s.striking sl = true) :
    s.server.main = .closing .idle ∧ sl = .send (serverReset "idle timeout") := by
  unfold striking at hstrike
  split at hstrike
  · next hmain => exact ⟨hmain, congrArg _ (of_decide_eq_true hstrike)⟩
  · cases hstrike

/-- A step that meets the condition kills no active tunnel. -/
theorem NeverKilledActive.step (h : NeverKilledActive idleTimeout s) (hclock : Clock idleTimeout s)
    (hs : s.step config metadata idleTimeout l = some s') (hok : s.Undisturbed l) :
    NeverKilledActive idleTimeout s' := by
  rcases step_cases hs with ⟨d, -, rfl⟩ | ⟨sl, server, rfl, -, rfl, -⟩
  · exact h
  · intro strike hmem
    simp only [note] at hmem
    split at hmem
    · next hstrike =>
      rcases List.mem_append.mp hmem with hold | hnew
      · exact h strike hold
      · -- the wait took the whole timeout, and nothing happened in it
        have hidling : s.server.main.idling = true := by
          rw [(striking_spec hstrike).1]
          rfl
        have hran := hclock.ran_out hidling
        rw [List.mem_singleton.mp hnew]
        refine ⟨fun t ht => ?_, fun t ht => ?_⟩
        · have hle := hclock.before_wait (.inr hidling) t ht
          dsimp only
          omega
        · have hle := hok hstrike t ht
          dsimp only
          omega
    · exact h strike hmem

/-- Where the server is on time, no wait is overdue. -/
def NotOverdue (idleTimeout : Nat) (s : TimedState) : Prop :=
  s.server.main.waiting = true ∨ s.server.main.idling = true → s.now ≤ s.armed + idleTimeout

theorem NotOverdue.step (h : NotOverdue idleTimeout s)
    (hs : s.step config metadata idleTimeout l = some s') (hon : s.Punctual idleTimeout l) :
    NotOverdue idleTimeout s' := by
  rcases step_cases hs with ⟨d, rfl, rfl⟩ | ⟨sl, server, -, hserver, rfl, -⟩
  · exact hon
  · intro hwait
    by_cases hnew : s.server.main.waiting = false ∧ server.main.waiting = true
    · have harmed : (s.note sl server).armed = s.now := if_pos hnew
      rw [harmed]
      exact Nat.le_add_right _ _
    · -- the wait that goes on, or has run out, is the one before the step
      have harmed : (s.note sl server).armed = s.armed := if_neg hnew
      rw [harmed]
      refine h ?_
      rcases hwait with hwaiting | hidling
      · refine .inl ?_
        by_contra hnot
        exact hnew ⟨by simpa using hnot, hwaiting⟩
      · rcases idling_step hserver hidling with ⟨hbefore, -⟩ | ⟨hmain, -⟩
        · exact .inr hbefore
        · exact .inl (by rw [hmain]; rfl)

theorem not_overdue_of_onTime (hr : (onTime config metadata targetInput idleTimeout).Reachable s) :
    NotOverdue idleTimeout s := by
  refine Lts.System.invariant _ (NotOverdue idleTimeout) ?_ ?_ s hr
  · rintro s rfl (hwaiting | hidling)
    · cases hwaiting
    · cases hidling
  · intro s l s' h hs
    obtain ⟨hon, hs⟩ := Lts.System.restrict_step_iff.mp hs
    exact h.step hs hon

/-- On time, a step that does not meet the condition kills an active tunnel. -/
theorem killed_of_disturbed (htime : NotOverdue idleTimeout s)
    (hs : s.step config metadata idleTimeout l = some s') (hnot : ¬ s.Undisturbed l) :
    ¬ NeverKilledActive idleTimeout s' := by
  rcases step_cases hs with ⟨d, rfl, -⟩ | ⟨sl, server, rfl, -, rfl, -⟩
  · exact absurd trivial hnot
  · simp only [Undisturbed, Classical.not_imp, not_forall] at hnot
    obtain ⟨hstrike, t, ht, hyoung⟩ := hnot
    have hdue := htime (.inr (by rw [(striking_spec hstrike).1]; rfl))
    intro h
    have hmem : Strike.mk s.now s.dataAt s.forwardedAt ∈ (s.note sl server).strikes := by
      simp [note, hstrike]
    have hkilled := (h _ hmem).2 t ht
    dsimp only at hkilled
    omega

/-- **No active tunnel is killed as idle** in the runs in which nothing of the target
    is forwarded from the start of a wait that runs out to its `Reset`; and among the
    runs that are on time, in no others. -/
theorem idle_timeout_exact :
    (∀ s, ((system config metadata targetInput idleTimeout).restrict Undisturbed).Reachable s →
        NeverKilledActive idleTimeout s) ∧
      ∀ (ls : List TimedLabel) (s : TimedState),
        (onTime config metadata targetInput idleTimeout).run (fresh targetInput) ls = some s →
        ((∀ pre s₁, pre <+: ls →
            (onTime config metadata targetInput idleTimeout).run (fresh targetInput) pre = some s₁ →
            NeverKilledActive idleTimeout s₁) ↔
          ((onTime config metadata targetInput idleTimeout).restrict Undisturbed).run
            (fresh targetInput) ls = some s) := by
  constructor
  · refine Lts.System.invariant_of_reachable _ _ ?_ ?_
    · rintro s rfl strike hmem
      cases hmem
    · intro s l s' hr h hs
      obtain ⟨hok, hs⟩ := Lts.System.restrict_step_iff.mp hs
      exact h.step (clock_of_reachable hr.of_restrict) hs hok
  · intro ls s hrun
    refine Lts.System.run_good_iff ?_ ?_ (.init rfl) hrun
    · refine Lts.System.invariant_of_reachable _ _ ?_ ?_
      · rintro s rfl strike hmem
        cases hmem
      · intro s l s' hr h hs
        obtain ⟨hok, hs⟩ := Lts.System.restrict_step_iff.mp hs
        obtain ⟨-, hs⟩ := Lts.System.restrict_step_iff.mp hs
        exact h.step (clock_of_reachable hr.of_restrict.of_restrict) hs hok
    · intro s l s' hr hs hnot
      obtain ⟨-, hs⟩ := Lts.System.restrict_step_iff.mp hs
      exact killed_of_disturbed (not_overdue_of_onTime hr.of_restrict) hs hnot

end timed

/-! ## A download that is cut off -/

/-- A tunnel that is open from the start of the clock. -/
def exampleOpened : List ServerLabel :=
  [.authenticate, .recv (some (.ok (openFrame ⟨"a.example".toList, 443, []⟩))),
    .resolve (.ok [⟨.v4 (.new 8 8 8 8), 443⟩]), .dial (.connected none), .targetWriteDone,
    .send (openResultFrame true "")]

/-- The client closes its side; the target sends a byte after 299 units. -/
def exampleDownloading : List TimedLabel :=
  exampleOpened.map .server ++ [.server (.recv (some (.ok halfCloseFrame))),
    .server .shutdownDone, .tick 299, .server (.task (.read [9])),
    .server (.task (.send (serverData [9]) false))]

/-- The client pings, and is then silent for 300 units, as the target is. -/
def exampleSilent : List TimedLabel :=
  exampleDownloading ++ [.server (.recv (some (.ok ⟨some (.ping 1)⟩))),
    .server (.send (pongFrame 1)), .tick 300, .server .idleTimeout,
    .server (.send (serverReset "idle timeout"))]

/-- This is no fault, and the tunnel is reset on time. -/
theorem idle_timeout_exact_silent :
    ∃ s, (system exampleServer exampleRequest [9] 300).run (fresh [9]) exampleSilent = some s ∧
      (onTime exampleServer exampleRequest [9] 300).run (fresh [9]) exampleSilent = some s ∧
      NeverKilledActive 300 s ∧ s.strikes.map Strike.time = [599] := by
  obtain ⟨s, hrun, hquiet, htime, hboth, hstrikes⟩ : ∃ s,
      (system exampleServer exampleRequest [9] 300).run (fresh [9]) exampleSilent = some s ∧
      ((system exampleServer exampleRequest [9] 300).restrict Undisturbed).run (fresh [9])
        exampleSilent = some s ∧
      (onTime exampleServer exampleRequest [9] 300).run (fresh [9]) exampleSilent = some s ∧
      ((onTime exampleServer exampleRequest [9] 300).restrict Undisturbed).run (fresh [9])
        exampleSilent = some s ∧
      s.strikes.map Strike.time = [599] := ⟨_, rfl, rfl, rfl, rfl, rfl⟩
  refine ⟨s, hrun, htime, ?_, hstrikes⟩
  have hnever := idle_timeout_exact.1 s (Lts.System.reachable_of_run (.init rfl) hquiet)
  -- on time, the other half says the same
  have hagain := (idle_timeout_exact.2 exampleSilent s htime).mpr hboth exampleSilent s
    (List.prefix_refl _) htime
  exact fun strike hmem => ⟨(hnever strike hmem).1, (hagain strike hmem).2⟩

/-- The target goes on, but the client stays silent: one unit after the byte its wait
    runs out, and the `Reset` is sent. -/
def exampleKilled : List TimedLabel :=
  exampleDownloading ++ [.tick 1, .server .idleTimeout,
    .server (.send (serverReset "idle timeout"))]

theorem download_killed :
    ¬ ∀ s, (system exampleServer exampleRequest [9] 300).Reachable s → NeverKilledActive 300 s := by
  intro hclaim
  obtain ⟨s, hrun⟩ : ∃ s, (system exampleServer exampleRequest [9] 300).run (fresh [9])
      exampleKilled = some s := ⟨_, rfl⟩
  have hseen : ((system exampleServer exampleRequest [9] 300).run (fresh [9])
      exampleKilled).map TimedState.strikes = some [⟨300, [], [299]⟩] := rfl
  rw [hrun, Option.map_some, Option.some.injEq] at hseen
  have hkilled := hclaim s (Lts.System.reachable_of_run (.init rfl) hrun) ⟨300, [], [299]⟩
    (by rw [hseen]; exact List.mem_cons_self)
  exact absurd (hkilled.2 299 List.mem_cons_self) (by decide)

end TimedState

end EchProxy
