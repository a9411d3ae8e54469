import EchProxy.Tunnel.System
import Mathlib.Tactic.Ring

/-! # Every Run of a Tunnel Ends

    The sockets deliver finitely many bytes, and each step uses something up:
    bytes still to be read, a frame in a hand, a queue or a stream, a place in
    a main loop.  Only the list of addresses the resolver answers with has no
    bound in the state before, so the measure is a pair: whether the server
    still waits for that answer, and the work that is left.
-/

namespace EchProxy

open Server Fifo

/-! ## Reading tasks -/

namespace ReadTask

variable {F : Type} {kit : FrameKit F} {cost : Nat} {t t' : ReadTask F}

/-- What is to be done with a frame: `cost`, and one for each byte. -/
def frameWeight (kit : FrameKit F) (cost : Nat) (frame : F) : Nat :=
  cost + (kit.bytes frame).length

/-- The work left in a reading task whose frames cost `cost` in the queue. -/
def weight (kit : FrameKit F) (cost : Nat) (t : ReadTask F) : Nat :=
  (cost + 3) * t.input.length +
    match t.pc with
    | .idle | .reading => cost + 2
    | .sending frame last => frameWeight kit cost frame + 1 + if last then 0 else cost + 2
    | .finished => 0

@[simp] theorem weight_abort (t : ReadTask F) : t.abort.weight kit cost = t.weight kit cost := by
  simp [weight]

theorem weight_spawn (hidle : t.pc = .idle) : t.spawn.weight kit cost = t.weight kit cost := by
  simp [weight, spawn, hidle]

/-- A step of a task, with the frame it hands to the queue, uses work up. -/
theorem step_weight [DecidableEq F] (cost : Nat) {l : TaskLabel F} (hs : t.step kit l = some t') :
    t'.weight kit cost + load (frameWeight kit cost) l.frames < t.weight kit cost := by
  cases step_iff.mp hs with
  | @read bytes hpc hne _ hpre =>
    obtain ⟨rest, hrest⟩ := hpre
    have hpos : 0 < bytes.length := List.length_pos_iff.mpr hne
    -- a chunk has at least one byte, and each byte that is read pays for a whole frame
    have hcost : (cost + 3) * bytes.length = cost * bytes.length + 3 * bytes.length := by ring
    have hmany : cost ≤ cost * bytes.length := Nat.le_mul_of_pos_right _ hpos
    simp only [weight, frameWeight, hpc, TaskLabel.frames, load_nil, ← hrest, List.drop_left,
      kit.bytes_data, List.length_append, Nat.mul_add, Bool.false_eq_true, if_false]
    omega
  | eof hpc _ =>
    simp [weight, frameWeight, hpc, TaskLabel.frames]
  | @readErr err hpc =>
    simp [weight, frameWeight, hpc, TaskLabel.frames]
  | @send frame last hpc =>
    cases last with
    | true => simp [weight, hpc, TaskLabel.frames]
    | false =>
      simp [weight, hpc, TaskLabel.frames]
      omega
  | @sendFail frame last hpc =>
    simp only [weight, hpc, TaskLabel.frames, load_nil]
    omega
  -- wherever the task is, it has more to do than one that is over
  | cancel _ hidle hfinished =>
    cases hpc : t.pc with
    | idle => exact absurd hpc hidle
    | finished => exact absurd hpc hfinished
    | reading => simp [weight, hpc, TaskLabel.frames]
    | sending frame last =>
      simp only [weight, hpc, TaskLabel.frames, load_nil]
      omega

end ReadTask

/-! ## The client

    A client frame costs 5 on its way to the server, where it may have to be
    answered with a `Pong`; a server frame costs 2 on its way to the client.
-/

/-- The work left at a place of `relay_grpc`. -/
def ClientPc.weight (target : Open) : ClientPc → Nat
  | .start => target.firstPayload.length + 11
  | .preparing => 4
  | .calling => 3
  | .awaitOpen => 2
  | .relaying => 1
  | .writing rest => rest.length + 2
  | .shutting => 1
  | .returned _ => 0

namespace ClientState

variable {target : Open} {localInput : Bytes} {s s' : ClientState}

/-- The work left in a client. -/
def weight (target : Open) (s : ClientState) : Nat :=
  s.main.weight target + s.task.weight clientKit 6

theorem weight_eq {main : ClientPc} (hmain : s.main = main) :
    s.weight target = main.weight target + s.task.weight clientKit 6 := by
  rw [weight, hmain]

/-- A failure leaves nothing to do for the main loop. -/
theorem fail_weight (s : ClientState) (err : RelayError) :
    (s.fail err).weight target = s.task.weight clientKit 6 :=
  Nat.zero_add _

theorem onFirst_weight (hmain : s.main = .awaitOpen) (hidle : s.task.pc = .idle)
    (item : StreamItem ServerFrame) : (s.onFirst item).weight target < s.weight target := by
  have hfail : ∀ err, (s.fail err).weight target < s.weight target := by
    intro err
    rw [fail_weight, weight_eq hmain]
    simp [ClientPc.weight]
  rcases item with _ | (status | frame)
  · exact hfail _
  · exact hfail _
  · obtain ⟨payload⟩ := frame
    rcases payload with _ | result | bytes | _ | reason | millis
    · exact hfail _
    · show (if result.ok then _ else _ : ClientState).weight target < _
      by_cases hok : result.ok
      · rw [if_pos hok, weight_eq hmain]
        show 1 + s.task.spawn.weight clientKit 6 < 2 + s.task.weight clientKit 6
        rw [ReadTask.weight_spawn hidle]
        omega
      · rw [if_neg hok]
        exact hfail _
    · exact hfail _
    · exact hfail _
    · exact hfail _
    · exact hfail _

/-- A turn of the loop turns the frame it takes into work. -/
theorem onNext_weight (hmain : s.main = .relaying) (item : StreamItem ServerFrame) :
    (s.onNext item).weight target
      < s.weight target + load (ReadTask.frameWeight serverKit 2) item.frames := by
  have hw : s.weight target = 1 + s.task.weight clientKit 6 := weight_eq hmain
  have hfail : ∀ err, (s.fail err).weight target < s.weight target := by
    intro err
    rw [fail_weight, hw]
    omega
  rcases item with _ | (status | frame)
  · show 0 + s.task.abort.weight clientKit 6 < s.weight target
    rw [ReadTask.weight_abort, hw]
    omega
  · exact hfail _
  · obtain ⟨payload⟩ := frame
    -- the frame pays for what the loop does with it
    have hgo : ∀ err, (s.fail err).weight target < s.weight target
        + load (ReadTask.frameWeight serverKit 2) [⟨payload⟩] :=
      fun err => Nat.lt_add_right _ (hfail err)
    rcases payload with _ | result | bytes | _ | reason | millis
    · exact hgo _
    · exact hgo _
    · show bytes.length + 2 + s.task.weight clientKit 6
        < s.weight target + (2 + bytes.length + 0)
      omega
    · show 1 + s.task.weight clientKit 6 < s.weight target + (2 + 0 + 0)
      omega
    · exact hgo _
    · show s.weight target < s.weight target + (2 + 0 + 0)
      omega

/-- **A step of the client uses work up**, what it puts into its queue and what
    it takes off the stream included. -/
theorem step_weight (hinv : Inv target localInput s) {l : ClientLabel}
    (hs : s.step target l = some s') :
    s'.weight target + load (ReadTask.frameWeight clientKit 6) (l.frames target)
      < s.weight target
        + load (ReadTask.frameWeight serverKit 2) (l.item.elim [] StreamItem.frames) := by
  cases step_iff.mp hs with
  | sendOpen hmain =>
    rw [weight_eq hmain]
    show 4 + s.task.weight clientKit 6 + (6 + target.firstPayload.length + 0)
      < target.firstPayload.length + 11 + s.task.weight clientKit 6 + 0
    omega
  | tokenOk hmain | badToken hmain | callOk hmain | callErr hmain | localWriteDone hmain
  | localWriteErr hmain | localShutdownErr hmain =>
    rw [weight_eq hmain]
    simp [weight, fail, ClientPc.weight, ClientLabel.frames, ClientLabel.item]
  | localShutdownOk hmain =>
    rw [weight_eq hmain]
    simp [weight, finish, ClientPc.weight, ClientLabel.frames, ClientLabel.item]
  | @recvFirst item hmain =>
    -- the spawn costs nothing, as the reads to come were counted
    have hidle := (hinv.not_spawned (by rw [hmain]; rfl)).1
    exact Nat.lt_add_right _ (onFirst_weight (s := s.note item) hmain hidle item)
  | @recvNext item hmain => exact onNext_weight (s := s.note item) hmain item
  | localWrite hmain hpos hfits =>
    rw [weight_eq hmain]
    simp only [weight, ClientPc.weight, ClientLabel.frames, ClientLabel.item, Option.elim_none,
      load_nil, List.length_drop]
    omega
  | task ht =>
    have htask := ReadTask.step_weight 6 ht
    simp only [weight, ClientLabel.frames, ClientLabel.item, Option.elim_none, load_nil]
    omega

end ClientState

/-! ## The server side -/

/-- The work left at a place of `handle_tunnel`. -/
def ServerPc.weight : ServerPc → Nat
  | .idle => 1
  | .rejected _ | .waitOpen | .resolving _ => 0
  | .connecting target rest _ => target.firstPayload.length + rest.length + 12
  | .writingFirst rest => rest.length + 11
  | .openOk => 10
  | .relaying => 6
  | .writing rest => rest.length + 7
  | .shutting none => 7
  | .shutting (some _) => 5
  | .pong _ => 10
  | .closing _ => 4
  | .returned _ => 0

/-- 1 as long as the resolver has not answered. -/
def ServerPc.rank : ServerPc → Nat
  | .idle | .waitOpen | .resolving _ => 1
  | _ => 0

namespace ServerState

variable {config : ServerConfig} {metadata : MetadataMap} {targetInput : Bytes}
  {s s' : ServerState}

/-- The work left in a server. -/
def weight (s : ServerState) : Nat :=
  s.main.weight + s.task.weight serverKit 3

theorem weight_eq {main : ServerPc} (hmain : s.main = main) :
    s.weight = main.weight + s.task.weight serverKit 3 := by
  rw [weight, hmain]

/-- On the way out there is at most one frame to send. -/
theorem leave_weight (text : IpText) (s : ServerState) (why : ServerExit) :
    (s.leave text why).main.rank = 0 ∧
      (s.leave text why).weight ≤ s.task.weight serverKit 3 + 4 := by
  unfold leave
  split
  · refine ⟨rfl, ?_⟩
    show 4 + s.task.weight serverKit 3 ≤ _
    omega
  · refine ⟨rfl, ?_⟩
    show 0 + s.task.abort.weight serverKit 3 ≤ _
    rw [ReadTask.weight_abort]
    omega

/-- The order of the measure: the resolver answers, or work is used up. -/
def Lowers (extra extra' : Nat) (s' s : ServerState) : Prop :=
  s'.main.rank < s.main.rank ∨
    (s'.main.rank = s.main.rank ∧ s'.weight + extra' < s.weight + extra)

/-- The loop moves on to a place with less work, and the task stays. -/
theorem Lowers.move {extra extra' : Nat} {main : ServerPc} (hmain : s.main = main)
    {t : ServerState} (hrank : t.main.rank = main.rank) (htask : t.task = s.task)
    (hwork : t.main.weight + extra' < main.weight + extra) : Lowers extra extra' t s := by
  refine .inr ⟨by rw [hmain, hrank], ?_⟩
  rw [weight_eq hmain, weight_eq (s := t) rfl, htask]
  omega

/-- Leaving from before the answer lowers the rank. -/
theorem Lowers.leave_early {extra extra' : Nat} {t : ServerState} (hearly : s.main.rank = 1)
    (text : IpText) (why : ServerExit) : Lowers extra extra' (t.leave text why) s := by
  refine .inl ?_
  rw [hearly, (leave_weight text t why).1]
  exact Nat.one_pos

/-- Leaving from after it uses work up. -/
theorem Lowers.leave_late {extra : Nat} {t : ServerState} (hlate : s.main.rank = 0)
    (hwork : 4 < s.main.weight) (htask : t.task = s.task) (text : IpText)
    (why : ServerExit) : Lowers extra 0 (t.leave text why) s := by
  obtain ⟨hrank, hweight⟩ := leave_weight text t why
  rw [htask] at hweight
  have hw : s.weight = s.main.weight + s.task.weight serverKit 3 := rfl
  refine .inr ⟨hrank.trans hlate.symm, ?_⟩
  omega

theorem onFirst_lowers (hmain : s.main = .waitOpen) (item : StreamItem ClientFrame) :
    Lowers (load (ReadTask.frameWeight clientKit 5) item.frames) 0
      (s.onFirst config.text item) s := by
  have hearly : s.main.rank = 1 := by rw [hmain]; rfl
  rcases item with _ | (status | frame)
  · exact .leave_early hearly _ _
  · exact .leave_early hearly _ _
  · obtain ⟨payload⟩ := frame
    rcases payload with _ | target | bytes | _ | reason | millis
    · exact .leave_early hearly _ _
    · refine .inr ⟨hearly.symm, ?_⟩
      rw [weight_eq hmain]
      show 0 + s.task.weight serverKit 3 + 0
        < 0 + s.task.weight serverKit 3 + (5 + target.firstPayload.length + 0)
      omega
    · exact .leave_early hearly _ _
    · exact .leave_early hearly _ _
    · exact .leave_early hearly _ _
    · exact .leave_early hearly _ _

theorem onNext_lowers (hmain : s.main = .relaying) (item : StreamItem ClientFrame) :
    Lowers (load (ReadTask.frameWeight clientKit 5) item.frames) 0
      (s.onNext config.text item) s := by
  have hlate : s.main.rank = 0 := by rw [hmain]; rfl
  -- enough is left in the loop for any way out of it
  have hwork : 4 < s.main.weight := by rw [hmain]; decide
  have hw : s.weight = 6 + s.task.weight serverKit 3 := weight_eq hmain
  rcases item with _ | (status | frame)
  · refine .inr ⟨hlate.symm, ?_⟩
    show 5 + s.task.weight serverKit 3 + 0 < s.weight + 0
    omega
  · refine .inr ⟨hlate.symm, ?_⟩
    show 5 + s.task.weight serverKit 3 + 0 < s.weight + 0
    omega
  · obtain ⟨payload⟩ := frame
    rcases payload with _ | target | bytes | _ | reason | millis
    · exact .leave_late hlate hwork rfl _ _
    · exact .leave_late hlate hwork rfl _ _
    · refine .inr ⟨hlate.symm, ?_⟩
      show bytes.length + 7 + s.task.weight serverKit 3 + 0 < s.weight + (5 + bytes.length + 0)
      omega
    · refine .inr ⟨hlate.symm, ?_⟩
      show 7 + s.task.weight serverKit 3 + 0 < s.weight + (5 + 0 + 0)
      omega
    · refine .inr ⟨hlate.symm, ?_⟩
      show 5 + s.task.weight serverKit 3 + 0 < s.weight + (5 + 0 + 0)
      omega
    · refine .inr ⟨hlate.symm, ?_⟩
      show 10 + s.task.weight serverKit 3 + 0 < s.weight + (5 + 0 + 0)
      omega

theorem onDial_lowers {target : Open} {addr : SocketAddr} {rest : List SocketAddr}
    {lastErr : Option String} (hmain : s.main = .connecting target (addr :: rest) lastErr)
    (outcome : DialOutcome) : Lowers 0 0 (s.onDial config target addr rest outcome) s := by
  have hlate : s.main.rank = 0 := by rw [hmain]; rfl
  have hw : s.weight = target.firstPayload.length + (rest.length + 1) + 12
      + s.task.weight serverKit 3 := weight_eq hmain
  rcases outcome with peer | err | _
  · simp only [onDial]
    split
    · refine .inr ⟨hlate.symm, ?_⟩
      show target.firstPayload.length + 11 + s.task.weight serverKit 3 + 0 < s.weight + 0
      omega
    · refine .leave_late (t := s.dialed addr (.connected peer)) hlate ?_ rfl _ _
      rw [hmain]
      show 4 < target.firstPayload.length + (rest.length + 1) + 12
      omega
  · refine .inr ⟨hlate.symm, ?_⟩
    show target.firstPayload.length + rest.length + 12 + s.task.weight serverKit 3 + 0
      < s.weight + 0
    omega
  · refine .inr ⟨hlate.symm, ?_⟩
    show target.firstPayload.length + rest.length + 12 + s.task.weight serverKit 3 + 0
      < s.weight + 0
    omega

/-- The frames of the main loop carry no connection bytes. -/
theorem outgoing_bytes {text : IpText} {frame : ServerFrame}
    (hframe : s.outgoing text = some frame) : frame.bytes = [] := by
  unfold outgoing at hframe
  split at hframe
  · rw [← Option.some.inj hframe]
    rfl
  · rw [← Option.some.inj hframe]
    rfl
  · next why _ =>
    cases why <;> simp only [ServerExit.frame, Option.some.injEq, reduceCtorEq] at hframe <;>
      rw [← hframe] <;> rfl
  · cases hframe

/-- The frame of the main loop is paid for, whether the queue takes it or not. -/
theorem afterSend_lowers {text : IpText} (hinv : Inv targetInput s)
    (hout : (s.outgoing text).isSome) (sent : List ServerFrame) :
    Lowers 0 3 (afterSend { s with sent := sent }) s := by
  unfold outgoing at hout
  unfold afterSend
  split at hout
  · next hmain =>
    -- the three weights for the frame come off the place
    have hidle := hinv.not_spawned (by rw [hmain]; rfl) (by simp [hmain, ServerPc.phase])
    simp only [hmain]
    refine .inr ⟨by rw [hmain]; rfl, ?_⟩
    rw [weight_eq hmain]
    show 6 + s.task.spawn.weight serverKit 3 + 3 < 10 + s.task.weight serverKit 3 + 0
    rw [ReadTask.weight_spawn hidle]
    omega
  · next hmain =>
    simp only [hmain]
    refine .inr ⟨by rw [hmain]; rfl, ?_⟩
    rw [weight_eq hmain]
    show 6 + s.task.weight serverKit 3 + 3 < 10 + s.task.weight serverKit 3 + 0
    omega
  · next hmain =>
    simp only [hmain]
    refine .inr ⟨by rw [hmain]; rfl, ?_⟩
    rw [weight_eq hmain]
    show 0 + s.task.abort.weight serverKit 3 + 3 < 4 + s.task.weight serverKit 3 + 0
    rw [ReadTask.weight_abort]
    omega
  · cases hout

/-- **A step of the server uses work up**, or the resolver answers. -/
theorem step_lowers (hinv : Inv targetInput s) {l : ServerLabel}
    (hs : s.step config metadata l = some s') :
    Lowers (load (ReadTask.frameWeight clientKit 5) (l.item.elim [] StreamItem.frames))
      (load (ReadTask.frameWeight serverKit 3) l.frames) s' s := by
  -- a write takes at least one byte
  have hwritten : ∀ (rest : Bytes) {n : Nat}, 0 < n → n ≤ rest.length →
      (rest.drop n).length < rest.length := by
    intro rest n hpos hfits
    rw [List.length_drop]
    omega
  cases step_iff.mp hs with
  | authenticated hmain _ => exact .move hmain rfl rfl (show 0 + 0 < 1 + 0 by omega)
  | rejected hmain _ =>
    refine .inl ?_
    rw [hmain]
    exact Nat.one_pos
  | @recvFirst item hmain => exact onFirst_lowers (s := s.note item) hmain item
  | @recvNext item hmain => exact onNext_lowers (s := s.note item) hmain item
  | openTimeout hmain => exact .leave_early (by rw [hmain]; rfl) _ _
  | idleTimeout hmain | firstWriteErr hmain | writeErr hmain =>
    exact .leave_late (by rw [hmain]; rfl) (by simp [hmain, ServerPc.weight]) rfl _ _
  | shutdownOut hmain =>
    have hlate : s.main.rank = 0 := by
      rw [hmain]
      rfl
    have htask : s.shutTarget.task = s.task := rfl
    exact .leave_late hlate (by simp [hmain, ServerPc.weight]) htask _ _
  | resolve hmain =>
    have hearly : s.main.rank = 1 := by
      rw [hmain]
      rfl
    unfold onResolve
    split
    · refine .inl ?_
      rw [hearly]
      exact Nat.one_pos
    · exact .leave_early hearly _ _
  | @dial target addr rest lastErr outcome hmain => exact onDial_lowers hmain outcome
  | exhausted hmain =>
    refine .leave_late (by rw [hmain]; rfl) ?_ rfl _ _
    simp only [hmain, ServerPc.weight]
    omega
  -- these places have the rank they had, and less to do
  | @firstWrite rest n hmain hpos hfits =>
    have hless := hwritten rest hpos hfits
    exact .move hmain rfl rfl
      (show (rest.drop n).length + 11 + 0 < rest.length + 11 + 0 by omega)
  | @write rest n hmain hpos hfits =>
    have hless := hwritten rest hpos hfits
    exact .move hmain rfl rfl (show (rest.drop n).length + 7 + 0 < rest.length + 7 + 0 by omega)
  | firstWriteDone hmain => exact .move hmain rfl rfl (show 10 + 0 < 0 + 11 + 0 by omega)
  | writeDone hmain => exact .move hmain rfl rfl (show 6 + 0 < 0 + 7 + 0 by omega)
  | shutdown hmain => exact .move hmain rfl rfl (show 6 + 0 < 7 + 0 by omega)
  | @send frame hout =>
    have hlowers := afterSend_lowers hinv (by rw [hout]; rfl) (s.sent ++ [frame])
    have hload : load (ReadTask.frameWeight serverKit 3) [frame] = 3 := by
      show 3 + frame.bytes.length + 0 = 3
      rw [outgoing_bytes hout]
      rfl
    show Lowers 0 (load (ReadTask.frameWeight serverKit 3) [frame]) _ s
    rw [hload]
    exact hlowers
  | sendFail hout =>
    rcases afterSend_lowers hinv hout s.sent with hrank | ⟨hrank, hweight⟩
    · exact .inl hrank
    · exact .inr ⟨hrank, Nat.lt_of_le_of_lt (Nat.le_add_right _ 3) hweight⟩
  | @task l t ht =>
    have htask := ReadTask.step_weight 3 ht
    refine .inr ⟨rfl, ?_⟩
    show s.main.weight + t.weight serverKit 3 + load _ l.frames
      < s.main.weight + s.task.weight serverKit 3 + 0
    omega

end ServerState

/-! ## The tunnel -/

namespace TunnelState

variable {setup : TunnelSetup} {s s' : TunnelState}

/-- The work left in a tunnel. -/
def weight (setup : TunnelSetup) (s : TunnelState) : Nat :=
  s.client.weight setup.target + s.server.weight +
    (s.cq.weight (ReadTask.frameWeight clientKit 6) +
      s.c2s.weight (ReadTask.frameWeight clientKit 5)) +
    (s.sq.weight (ReadTask.frameWeight serverKit 3) +
      s.s2c.weight (ReadTask.frameWeight serverKit 2))

/-- The measure of a tunnel. -/
def measure (setup : TunnelSetup) (s : TunnelState) : Nat × Nat :=
  (s.server.main.rank, s.weight setup)

/-- Taking an item takes its frames off the link. -/
theorem receiveIf_weight {F : Type} [DecidableEq F] (size : F → Nat) {q q' : Link F}
    {item : Option (StreamItem F)} (h : receiveIf q item = some q') :
    q.weight size = q'.weight size + load size (item.elim [] StreamItem.frames) := by
  obtain ⟨-, -, hqueue, hstatus⟩ := receiveIf_spec h
  rw [Link.weight, Link.weight, hqueue, hstatus, load_append]
  omega

/-- **Every step of a tunnel lowers its measure**, the faults included. -/
theorem step_measure (hinv : Inv setup s) {l : TunnelLabel} (hs : s.step setup l = some s') :
    Prod.Lex (· < ·) (· < ·) (s'.measure setup) (s.measure setup) := by
  -- the rank falls once, where the resolving ends; any other step lowers the weight
  have hsame : s'.server.main.rank = s.server.main.rank → s'.weight setup < s.weight setup →
      Prod.Lex (· < ·) (· < ·) (s'.measure setup) (s.measure setup) := by
    intro hrank hweight
    rw [measure, measure, hrank]
    exact .right _ hweight
  have hless : s'.server = s.server → s'.weight setup < s.weight setup →
      Prod.Lex (· < ·) (· < ·) (s'.measure setup) (s.measure setup) := by
    intro hserver hweight
    exact hsame (by rw [hserver]) hweight
  cases step_iff.mp hs with
  | client _ hclient hcq hs2c =>
    have hwork := ClientState.step_weight hinv.client hclient
    have hoffer := Link.weight_offer (ReadTask.frameWeight clientKit 6) hcq
    have htake := receiveIf_weight (ReadTask.frameWeight serverKit 2) hs2c
    apply hless rfl
    simp only [weight]
    omega
  | server _ hserver hsq hc2s =>
    have hoffer := Link.weight_offer (ReadTask.frameWeight serverKit 3) hsq
    have htake := receiveIf_weight (ReadTask.frameWeight clientKit 5) hc2s
    rcases ServerState.step_lowers hinv.server hserver with hrank | ⟨hrank, hwork⟩
    · exact .left _ _ hrank
    · apply hsame hrank
      simp only [weight]
      omega
  | pumpUp _ hpop hpush =>
    have htake := Link.weight_pop (ReadTask.frameWeight clientKit 6) hpop
    have hgive := Link.weight_push (ReadTask.frameWeight clientKit 5) hpush
    apply hless rfl
    -- on the link a frame costs one less than in the queue
    simp only [weight]
    simp only [ReadTask.frameWeight] at htake hgive ⊢
    omega
  | pumpDown hpop hpush =>
    have htake := Link.weight_pop (ReadTask.frameWeight serverKit 3) hpop
    have hgive := Link.weight_push (ReadTask.frameWeight serverKit 2) hpush
    apply hless rfl
    simp only [weight]
    simp only [ReadTask.frameWeight] at htake hgive ⊢
    omega
  | endUp _ _ _ hfinish =>
    have hlower := Link.weight_finish (ReadTask.frameWeight clientKit 5) hfinish
    apply hless rfl
    simp only [weight]
    omega
  | endDown _ _ hfinish =>
    have hlower := Link.weight_finish (ReadTask.frameWeight serverKit 2) hfinish
    apply hless rfl
    simp only [weight]
    omega
  | @cutUp k hup =>
    have hlower := Link.weight_cut (ReadTask.frameWeight clientKit 5) hup k
    apply hless rfl
    simp only [weight]
    omega
  | @cutDown k hup =>
    have hlower := Link.weight_cut (ReadTask.frameWeight serverKit 2) hup k
    apply hless rfl
    simp only [weight]
    omega
  | dropUp hup =>
    have hlower := Link.weight_cut (ReadTask.frameWeight clientKit 6) hup 0
    apply hless rfl
    simp only [weight]
    omega
  | dropDown hup =>
    have hlower := Link.weight_cut (ReadTask.frameWeight serverKit 3) hup 0
    apply hless rfl
    simp only [weight]
    omega

/-- **No run of a tunnel goes on forever**, whatever the network, the timeouts
    and the two sockets do. -/
theorem terminates (setup : TunnelSetup) : (system setup).Terminates := by
  refine Lts.System.terminates_of_measure (WellFounded.prod_lex Nat.lt_wfRel.wf Nat.lt_wfRel.wf)
    (measure setup) ?_
  intro s l s' hr hs
  exact step_measure (inv_of_reachable hr) hs

end TunnelState

end EchProxy
