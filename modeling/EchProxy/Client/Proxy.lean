import EchProxy.Client.Pool
import EchProxy.Framework.Family
import EchProxy.Tunnel.Recovery

/-! # Many Tunnels over One Pool

    `relay_grpc` as a whole: it waits for a stream permit of its backend's
    pool, picks a channel, relays, and gives the permit back when it returns,
    however it returns (`_permit` is dropped).  Any number of calls run at the
    same time and share nothing but the pool's semaphore and counter.

    The module puts the tunnels and the pool together: every tunnel runs as it
    does alone, the permits are never lost, and no call waits forever for one
    as long as the others come to their end.
-/

namespace EchProxy

open Server Fifo

/-! ## Calls -/

/-- How far a call of `relay_grpc` has come. -/
inductive CallStage where
  /-- At `acquire_stream_permit().await`. -/
  | waiting
  /-- It has a permit, and is about to pick. -/
  | picking
  /-- It relays on this channel. -/
  | running (channel : Nat)
  /-- It has returned, and its permit is back. -/
  | done
  deriving DecidableEq

/-- The steps a call has before it. -/
def CallStage.rank : CallStage → Nat
  | .waiting => 3
  | .picking => 2
  | .running _ => 1
  | .done => 0

/-- A call of `relay_grpc`.  Its tunnel goes on after the return, until the server and
    the reading tasks are through as well. -/
structure Call where
  setup : TunnelSetup
  stage : CallStage
  tunnel : TunnelState

namespace Call

/-- A call that is about to begin. -/
def fresh (setup : TunnelSetup) : Call where
  setup := setup
  stage := .waiting
  tunnel := .fresh setup

/-- The channel a call keeps busy. -/
def channel (call : Call) : Option Nat :=
  match call.stage with
  | .running channel => some channel
  | _ => none

def isPicking (call : Call) : Bool :=
  match call.stage with
  | .picking => true
  | _ => false

/-- It has a permit. -/
def holdsPermit (call : Call) : Bool :=
  match call.stage with
  | .picking | .running _ => true
  | _ => false

/-- `relay_grpc` is at work, or has been. -/
def started (call : Call) : Bool :=
  match call.stage with
  | .waiting | .picking => false
  | _ => true

/-- The relay itself has returned. -/
def hasReturned (call : Call) : Bool :=
  match call.tunnel.client.main with
  | .returned _ => true
  | _ => false

end Call

/-! ## The proxy -/

/-- The calls of one pool, in the order they were made. -/
structure ProxyState where
  pool : PoolState
  calls : List Call

inductive ProxyLabel where
  /-- A handler calls `relay_grpc`. -/
  | call (setup : TunnelSetup)
  /-- Call `i` gets its permit. -/
  | acquire (i : Nat)
  /-- Call `i` picks its channel. -/
  | pick (i : Nat)
  /-- A step of the tunnel of call `i`. -/
  | tunnel (i : Nat) (l : TunnelLabel)
  /-- Call `i` returns; of the tunnels of the pool it is the `k`-th that ends. -/
  | release (i k : Nat)

namespace ProxyState

/-- One step of the proxy. -/
def step (pool : BackendPool) (s : ProxyState) : ProxyLabel → Option ProxyState
  | .call setup => some { s with calls := s.calls ++ [.fresh setup] }
  | .acquire i => do
    let call ← s.calls[i]?
    if call.stage = .waiting then
      let next ← pool.step s.pool .acquire
      return ⟨next, s.calls.set i { call with stage := .picking }⟩
    else none
  | .pick i => do
    let call ← s.calls[i]?
    if call.stage = .picking then
      let next ← pool.step s.pool .pick
      -- the channel is the one whose turn it was
      return ⟨next, s.calls.set i
        { call with stage := .running (s.pool.next % pool.channels) }⟩
    else none
  | .tunnel i l => do
    let call ← s.calls[i]?
    if call.started then
      let tunnel ← (TunnelState.lawfulSystem call.setup).step call.tunnel l
      return { s with calls := s.calls.set i { call with tunnel := tunnel } }
    else none
  | .release i k => do
    let call ← s.calls[i]?
    let channel ← call.channel
    if call.hasReturned ∧ s.pool.active[k]? = some channel then
      let next ← pool.step s.pool (.finish k)
      return ⟨next, s.calls.set i { call with stage := .done }⟩
    else none

def system (pool : BackendPool) : Lts.System ProxyState ProxyLabel where
  init := fun s => s = ⟨pool.fresh, []⟩
  step := step pool

/-! ## The rules -/

/-- What a step needs, and what it leaves: one rule a branch of `step`. -/
inductive Step (pool : BackendPool) (s : ProxyState) : ProxyLabel → ProxyState → Prop where
  | call {setup : TunnelSetup} :
      Step pool s (.call setup) { s with calls := s.calls ++ [.fresh setup] }
  | acquire {i : Nat} {call : Call} {next : PoolState} (hget : s.calls[i]? = some call)
      (hstage : call.stage = .waiting) (hpool : pool.step s.pool .acquire = some next) :
      Step pool s (.acquire i) ⟨next, s.calls.set i { call with stage := .picking }⟩
  | pick {i : Nat} {call : Call} {next : PoolState} (hget : s.calls[i]? = some call)
      (hstage : call.stage = .picking) (hpool : pool.step s.pool .pick = some next) :
      Step pool s (.pick i)
        ⟨next, s.calls.set i { call with stage := .running (s.pool.next % pool.channels) }⟩
  | tunnel {i : Nat} {l : TunnelLabel} {call : Call} {tunnel : TunnelState}
      (hget : s.calls[i]? = some call) (hstarted : call.started = true)
      (htunnel : (TunnelState.lawfulSystem call.setup).step call.tunnel l = some tunnel) :
      Step pool s (.tunnel i l) { s with calls := s.calls.set i { call with tunnel := tunnel } }
  | release {i k channel : Nat} {call : Call} {next : PoolState} (hget : s.calls[i]? = some call)
      (hstage : call.stage = .running channel) (hreturned : call.hasReturned = true)
      (hk : s.pool.active[k]? = some channel) (hpool : pool.step s.pool (.finish k) = some next) :
      Step pool s (.release i k) ⟨next, s.calls.set i { call with stage := .done }⟩

theorem hasReturned_iff {call : Call} :
    call.hasReturned = true ↔ ∃ err, call.tunnel.client.main = .returned err := by
  unfold Call.hasReturned
  cases call.tunnel.client.main <;> simp

theorem channel_eq {call : Call} {channel : Nat} :
    call.channel = some channel ↔ call.stage = .running channel := by
  unfold Call.channel
  cases call.stage <;> simp

/-- **`step` follows the rules, and nothing else.** -/
theorem step_iff {pool : BackendPool} {s s' : ProxyState} {l : ProxyLabel} :
    s.step pool l = some s' ↔ Step pool s l s' := by
  constructor
  · intro hs
    cases l with
    | call setup =>
      obtain rfl := Option.some.inj hs
      exact .call
    | acquire i =>
      simp only [step, Option.bind_eq_bind, Option.bind_eq_some_iff,
        Option.ite_none_right_eq_some, Option.pure_def, Option.some.injEq] at hs
      obtain ⟨call, hget, hstage, next, hpool, rfl⟩ := hs
      exact .acquire hget hstage hpool
    | pick i =>
      simp only [step, Option.bind_eq_bind, Option.bind_eq_some_iff,
        Option.ite_none_right_eq_some, Option.pure_def, Option.some.injEq] at hs
      obtain ⟨call, hget, hstage, next, hpool, rfl⟩ := hs
      exact .pick hget hstage hpool
    | tunnel i l =>
      simp only [step, Option.bind_eq_bind, Option.bind_eq_some_iff,
        Option.ite_none_right_eq_some, Option.pure_def, Option.some.injEq] at hs
      obtain ⟨call, hget, hstarted, tunnel, htunnel, rfl⟩ := hs
      exact .tunnel hget hstarted htunnel
    | release i k =>
      simp only [step, Option.bind_eq_bind, Option.bind_eq_some_iff,
        Option.ite_none_right_eq_some, Option.pure_def, Option.some.injEq] at hs
      obtain ⟨call, hget, channel, hchannel, ⟨hreturned, hk⟩, next, hpool, rfl⟩ := hs
      exact .release hget (channel_eq.mp hchannel) hreturned hk hpool
  · intro hs
    cases hs with
    | call => rfl
    | acquire hget hstage hpool => simp [step, hget, hstage, hpool]
    | pick hget hstage hpool => simp [step, hget, hstage, hpool]
    | tunnel hget hstarted htunnel => simp [step, hget, hstarted, htunnel]
    | release hget hstage hreturned hk hpool =>
      simp [step, hget, channel_eq.mpr hstage, hreturned, hk, hpool]

/-! ## The accounts of the pool -/

/-- The pool's books are those of the calls, and every tunnel is one that runs alone. -/
structure Inv (pool : BackendPool) (s : ProxyState) : Prop where
  pool : BackendPool.Inv pool s.pool
  picking : s.pool.waiting = s.calls.countP Call.isPicking
  running : s.pool.active.Perm (s.calls.filterMap Call.channel)
  tunnels : ∀ call ∈ s.calls,
    (TunnelState.lawfulSystem call.setup).Reachable call.tunnel ∧
      (call.stage = .done → call.hasReturned = true)

section accounts
variable {pool : BackendPool} {s s' : ProxyState}

theorem mem_of_get {xs : List Call} {i : Nat} {call : Call} (h : xs[i]? = some call) :
    call ∈ xs :=
  List.mem_of_getElem? h

theorem Inv.step {l : ProxyLabel} (h : Inv pool s) (hs : s.step pool l = some s') :
    Inv pool s' := by
  cases step_iff.mp hs with
  | @call setup =>
    refine ⟨h.pool, ?_, ?_, ?_⟩
    · rw [List.countP_append, h.picking]
      rfl
    · rw [List.filterMap_append]
      show s.pool.active.Perm (s.calls.filterMap Call.channel ++ [])
      rw [List.append_nil]
      exact h.running
    · refine List.forall_mem_append.mpr ⟨h.tunnels, fun call hmem => ?_⟩
      rw [List.mem_singleton.mp hmem]
      exact ⟨.init rfl, fun hdone => by cases hdone⟩
  | @acquire i call next hget hstage hpool =>
    have hpool' := h.pool.step hpool
    simp only [BackendPool.step, Option.ite_none_right_eq_some, Option.some.injEq] at hpool
    obtain ⟨-, rfl⟩ := hpool
    obtain ⟨n, hbefore, hafter⟩ :=
      Family.countP_set Call.isPicking hget { call with stage := .picking }
    obtain ⟨others, hheld, hheld'⟩ :=
      Family.filterMap_set Call.channel hget { call with stage := .picking }
    refine ⟨hpool', ?_, ?_, ?_⟩
    · have hwaiting := h.picking
      rw [hbefore] at hwaiting
      rw [hafter]
      simp [Call.isPicking, hstage] at hwaiting ⊢
      omega
    · -- a call that waits keeps no channel busy, nor does one that picks
      have hnone : call.channel = none := by simp [Call.channel, hstage]
      rw [hnone] at hheld
      exact (h.running.trans hheld).trans hheld'.symm
    · refine Family.forall_mem_set hget h.tunnels ⟨(h.tunnels call (mem_of_get hget)).1, ?_⟩
      intro hdone
      cases hdone
  | @pick i call next hget hstage hpool =>
    have hpool' := h.pool.step hpool
    simp only [BackendPool.step, Option.ite_none_right_eq_some, Option.some.injEq] at hpool
    obtain ⟨-, rfl⟩ := hpool
    obtain ⟨n, hbefore, hafter⟩ := Family.countP_set Call.isPicking hget
      { call with stage := .running (s.pool.next % pool.channels) }
    obtain ⟨others, hheld, hheld'⟩ := Family.filterMap_set Call.channel hget
      { call with stage := .running (s.pool.next % pool.channels) }
    refine ⟨hpool', ?_, ?_, ?_⟩
    · have hwaiting := h.picking
      rw [hbefore] at hwaiting
      rw [hafter]
      simp [Call.isPicking, hstage] at hwaiting ⊢
      omega
    · have hnone : call.channel = none := by simp [Call.channel, hstage]
      rw [hnone] at hheld
      have hothers : s.pool.active.Perm others := h.running.trans hheld
      exact (List.perm_append_comm.trans (hothers.append_left _)).trans hheld'.symm
    · refine Family.forall_mem_set hget h.tunnels ⟨(h.tunnels call (mem_of_get hget)).1, ?_⟩
      intro hdone
      cases hdone
  | @tunnel i l call tunnel hget hstarted htunnel =>
    obtain ⟨n, hbefore, hafter⟩ :=
      Family.countP_set Call.isPicking hget { call with tunnel := tunnel }
    obtain ⟨others, hheld, hheld'⟩ :=
      Family.filterMap_set Call.channel hget { call with tunnel := tunnel }
    obtain ⟨hr, hdone⟩ := h.tunnels call (mem_of_get hget)
    refine ⟨h.pool, ?_, ?_, ?_⟩
    · rw [hafter, h.picking, hbefore]
      rfl
    · exact (h.running.trans hheld).trans hheld'.symm
    · refine Family.forall_mem_set hget h.tunnels ⟨.step hr htunnel, fun hstage => ?_⟩
      -- a relay that has returned does not come back
      obtain ⟨err, hmain⟩ := hasReturned_iff.mp (hdone hstage)
      refine hasReturned_iff.mpr ⟨err, ?_⟩
      rcases TunnelState.step_client (Lts.System.restrict_step_iff.mp htunnel).2 with
        ⟨cl, -, hclient⟩ | heq
      · exact ClientState.step_returned hmain hclient
      · exact heq ▸ hmain
  | @release i k channel call next hget hstage hreturned hk hpool =>
    have hpool' := h.pool.step hpool
    simp only [BackendPool.step, Option.ite_none_right_eq_some, Option.some.injEq] at hpool
    obtain ⟨hlt, rfl⟩ := hpool
    obtain ⟨n, hbefore, hafter⟩ :=
      Family.countP_set Call.isPicking hget { call with stage := .done }
    obtain ⟨others, hheld, hheld'⟩ :=
      Family.filterMap_set Call.channel hget { call with stage := .done }
    refine ⟨hpool', ?_, ?_, ?_⟩
    · have hwaiting := h.picking
      rw [hbefore] at hwaiting
      rw [hafter]
      simpa [Call.isPicking, hstage] using hwaiting
    · have hsome : call.channel = some channel := channel_eq.mpr hstage
      rw [hsome] at hheld
      have hactive : (channel :: s.pool.active.eraseIdx k).Perm (channel :: others) :=
        (Family.perm_cons_eraseIdx hk).symm.trans (h.running.trans hheld)
      exact hactive.cons_inv.trans hheld'.symm
    · refine Family.forall_mem_set hget h.tunnels ⟨(h.tunnels call (mem_of_get hget)).1, ?_⟩
      exact fun _ => hreturned

theorem inv_of_reachable (hr : (system pool).Reachable s) : Inv pool s := by
  refine Lts.System.invariant (system pool) (Inv pool) ?_ ?_ s hr
  · rintro s rfl
    exact
      { pool := BackendPool.inv_of_reachable (.init rfl)
        picking := rfl
        running := .refl _
        tunnels := fun call hmem => by cases hmem }
  · intro s l s' h hs
    exact h.step hs

/-- The pool of a proxy runs as it does alone. -/
theorem pool_reachable (hr : (system pool).Reachable s) : pool.system.Reachable s.pool := by
  induction hr with
  | init h =>
    rw [show _ = ProxyState.mk pool.fresh [] from h]
    exact .init rfl
  | step _ hs ih =>
    cases step_iff.mp hs with
    | call | tunnel => exact ih
    | acquire _ _ hpool => exact .step (l := .acquire) ih hpool
    | pick _ _ hpool => exact .step (l := .pick) ih hpool
    | @release _ k _ _ _ _ _ _ _ hpool => exact .step (l := .finish k) ih hpool

/-- A permit is with a call that is about to pick, or keeps a channel busy. -/
theorem countP_holdsPermit (calls : List Call) :
    calls.countP Call.holdsPermit
      = calls.countP Call.isPicking + (calls.filterMap Call.channel).length := by
  induction calls with
  | nil => rfl
  | cons call calls ih =>
    obtain ⟨setup, stage, tunnel⟩ := call
    rw [List.countP_cons, List.countP_cons, ih]
    cases stage <;>
      simp [Call.holdsPermit, Call.isPicking, Call.channel, List.filterMap_cons] <;> omega

/-- Every permit is free or with one call. -/
theorem Inv.permits_eq (h : Inv pool s) :
    s.pool.available + s.calls.countP Call.holdsPermit = pool.permits := by
  have hpermits := h.pool.permits
  rw [h.picking, h.running.length_eq, Nat.add_assoc] at hpermits
  rw [countP_holdsPermit, hpermits]

/-- **Tunnels share nothing but permits**: every tunnel of the proxy runs as it does
    alone, the pool as it does alone, every permit is free or with one call, and a
    channel carries the calls that run on it. -/
theorem runs_apart (hr : (system pool).Reachable s) :
    (∀ call ∈ s.calls, (TunnelState.lawfulSystem call.setup).Reachable call.tunnel) ∧
      pool.system.Reachable s.pool ∧
      s.pool.available + s.calls.countP Call.holdsPermit = pool.permits ∧
      ∀ channel, BackendPool.load s.pool channel
        = s.calls.countP fun call => call.stage = .running channel := by
  have h := inv_of_reachable hr
  refine ⟨fun call hmem => (h.tunnels call hmem).1, pool_reachable hr, h.permits_eq, ?_⟩
  intro channel
  rw [BackendPool.load, h.running.count_eq, List.count, List.countP_filterMap]
  refine List.countP_congr fun call _ => ?_
  rw [decide_eq_true_eq, ← channel_eq]
  cases call.channel <;> simp

end accounts

/-! ## Every call comes to its end -/

end ProxyState

namespace Call

/-- A call moves on: its stage, or its tunnel. -/
def Next (call' call : Call) : Prop :=
  call'.setup = call.setup ∧
    Prod.GameAdd (· < ·) (TunnelState.system call.setup).Next
      (call'.stage.rank, call'.tunnel) (call.stage.rank, call.tunnel)

/-- No call moves on forever. -/
theorem acc_next {call : Call} (hr : (TunnelState.system call.setup).Reachable call.tunnel) :
    Acc Next call := by
  have hsum : Acc (Prod.GameAdd (· < ·) (TunnelState.system call.setup).Next)
      (call.stage.rank, call.tunnel) :=
    (Nat.lt_wfRel.wf.apply _).prod_gameAdd (TunnelState.terminates call.setup _ hr)
  -- the setup of a call stays what it is
  obtain ⟨setup, stage, tunnel⟩ := call
  have hmoves : ∀ p, Acc (Prod.GameAdd (· < ·) (TunnelState.system setup).Next) p →
      ∀ stage tunnel, (CallStage.rank stage, tunnel) = p → Acc Next ⟨setup, stage, tunnel⟩ := by
    intro p hp
    induction hp with
    | intro p _ ih =>
      rintro stage tunnel rfl
      constructor
      rintro ⟨setup', stage', tunnel'⟩ ⟨hsetup, hmove⟩
      obtain rfl : setup' = setup := hsetup
      exact ih _ hmove stage' tunnel' rfl
  exact hmoves _ hsum stage tunnel rfl

end Call

/-! ## What comes by itself -/

/-- The step is not a new call. -/
def ProxyLabel.later : ProxyLabel → Bool
  | .call _ => false
  | _ => true

/-- The step comes by itself: a permit is taken and given back, and the tunnels go on
    without a new fault. -/
def ProxyLabel.due (s : ProxyState) : ProxyLabel → Bool
  | .call _ => false
  | .acquire _ | .pick _ | .release _ _ => true
  | .tunnel i l => (s.calls[i]?).any fun call => l.due call.tunnel

namespace ProxyState

/-- All calls have returned, nothing of their tunnels is left, and all permits are
    back. -/
structure AllOver (pool : BackendPool) (s : ProxyState) : Prop where
  permits : s.pool.available = pool.permits
  calls : ∀ call ∈ s.calls, call.stage = .done ∧ call.tunnel.Over

section ends
variable {pool : BackendPool} {s s' : ProxyState}

/-- A step other than a new call moves one call on. -/
theorem moves_of_later {l : ProxyLabel} (hlater : l.later = true)
    (hs : s.step pool l = some s') : Family.Moves Call.Next s'.calls s.calls := by
  cases step_iff.mp hs with
  | call => cases hlater
  | @acquire i call _ hget hstage _ =>
    refine ⟨i, call, { call with stage := .picking }, hget, ⟨rfl, .fst ?_⟩, rfl⟩
    rw [hstage]
    exact Nat.lt_succ_self 2
  | @pick i call _ hget hstage _ =>
    refine ⟨i, call, { call with stage := .running (s.pool.next % pool.channels) }, hget,
      ⟨rfl, .fst ?_⟩, rfl⟩
    rw [hstage]
    exact Nat.lt_succ_self 1
  | @tunnel i l call tunnel hget _ htunnel =>
    exact ⟨i, call, { call with tunnel := tunnel }, hget,
      ⟨rfl, .snd ⟨l, (Lts.System.restrict_step_iff.mp htunnel).2⟩⟩, rfl⟩
  | @release i k channel call _ hget hstage _ _ _ =>
    refine ⟨i, call, { call with stage := .done }, hget, ⟨rfl, .fst ?_⟩, rfl⟩
    rw [hstage]
    exact Nat.lt_succ_self 0

/-- Without new calls the proxy does not run forever. -/
theorem acc_later (h : Inv pool s) :
    Acc (fun s' s => ∃ l : ProxyLabel, l.later = true ∧ s.step pool l = some s') s := by
  have hcalls : Acc (Family.Moves Call.Next) s.calls :=
    Family.acc_moves fun call hmem => Call.acc_next (h.tunnels call hmem).1.of_restrict
  refine Subrelation.accessible ?_ (InvImage.accessible ProxyState.calls hcalls)
  rintro s' s ⟨l, hlater, hs⟩
  exact moves_of_later hlater hs

/-- What gRPC does about a fault is lawful. -/
theorem lawful_of_due {tunnel : TunnelState} {l : TunnelLabel} (hdue : l.due tunnel = true) :
    l.lawful tunnel = true := by
  cases l with
  | dropUp =>
    simp only [TunnelLabel.due, Bool.and_eq_true] at hdue
    exact hdue.1
  | _ => rfl

/-- Where nothing comes by itself, the tunnel of a call that has begun is over. -/
theorem over_of_still (h : Inv pool s) (hstill : ∀ l, l.due s = true → s.step pool l = none)
    {i : Nat} {call : Call} (hget : s.calls[i]? = some call) (hstarted : call.started = true) :
    call.tunnel.Over := by
  have hr := (h.tunnels call (mem_of_get hget)).1
  rcases TunnelState.over_or_due hr with hover | ⟨l, tunnel, hdue, htunnel⟩
  · exact hover
  · have hlawful := lawful_of_due hdue
    have htunnel' : (TunnelState.lawfulSystem call.setup).step call.tunnel l = some tunnel :=
      (if_pos hlawful).trans htunnel
    have hnone := hstill (.tunnel i l) (by simp [ProxyLabel.due, hget, hdue])
    rw [step_iff.mpr (.tunnel hget hstarted htunnel')] at hnone
    cases hnone

/-- **No call of `relay_grpc` is lost, and no permit**: over a pool with a permit,
    whatever fails in whichever tunnels, without new calls the proxy does not run
    forever, and a step comes by itself until every call has returned and every
    permit is back. -/
theorem every_call_ends (hpos : 0 < pool.permits) (hr : (system pool).Reachable s) :
    Acc (fun s' s => ∃ l : ProxyLabel, l.later = true ∧ s.step pool l = some s') s ∧
      (AllOver pool s ∨ ∃ l s', l.due s = true ∧ s.step pool l = some s') := by
  have h := inv_of_reachable hr
  refine ⟨acc_later h, ?_⟩
  by_contra hnot
  rw [not_or, not_exists] at hnot
  obtain ⟨hleft, hnone⟩ := hnot
  have hstill : ∀ l, l.due s = true → s.step pool l = none := by
    intro l hdue
    by_contra hsome
    obtain ⟨s', hs'⟩ := Option.ne_none_iff_exists'.mp hsome
    exact hnone l ⟨s', hdue, hs'⟩
  -- nobody is between its permit and its channel
  have hnotPicking : ∀ call ∈ s.calls, call.stage ≠ .picking := by
    intro call hmem hstage
    obtain ⟨i, hget⟩ := List.mem_iff_getElem?.mp hmem
    have hwait : 0 < s.pool.waiting := by
      rw [h.picking, List.countP_pos_iff]
      exact ⟨call, hmem, by simp [Call.isPicking, hstage]⟩
    have hpick : ∃ next, pool.step s.pool .pick = some next := by
      simp [BackendPool.step, hwait]
    obtain ⟨next, hpick⟩ := hpick
    have hblocked := hstill (.pick i) rfl
    rw [step_iff.mpr (.pick hget hstage hpick)] at hblocked
    cases hblocked
  -- a relay that runs is over, and gives its permit back
  have hnotRunning : ∀ call ∈ s.calls, ∀ channel, call.stage ≠ .running channel := by
    intro call hmem channel hstage
    obtain ⟨i, hget⟩ := List.mem_iff_getElem?.mp hmem
    have hover := over_of_still h hstill hget (by simp [Call.started, hstage])
    have hbusy : channel ∈ s.pool.active := by
      rw [h.running.mem_iff, List.mem_filterMap]
      exact ⟨call, hmem, channel_eq.mpr hstage⟩
    obtain ⟨k, hk⟩ := List.mem_iff_getElem?.mp hbusy
    have hfinish : ∃ next, pool.step s.pool (.finish k) = some next := by
      have hlt := (List.getElem?_eq_some_iff.mp hk).1
      simp [BackendPool.step, hlt]
    obtain ⟨next, hfinish⟩ := hfinish
    have hblocked := hstill (.release i k) rfl
    rw [step_iff.mpr (.release hget hstage (hasReturned_iff.mpr hover.client) hk hfinish)]
      at hblocked
    cases hblocked
  -- so all permits are free
  have hfree : s.pool.available = pool.permits := by
    have hcount := h.permits_eq
    have hzero : s.calls.countP Call.holdsPermit = 0 := by
      rw [List.countP_eq_zero]
      intro call hmem hholds
      cases hstage : call.stage with
      | picking => exact hnotPicking call hmem hstage
      | running channel => exact hnotRunning call hmem channel hstage
      | waiting | done => simp [Call.holdsPermit, hstage] at hholds
    rwa [hzero, Nat.add_zero] at hcount
  refine hleft ⟨hfree, fun call hmem => ?_⟩
  obtain ⟨i, hget⟩ := List.mem_iff_getElem?.mp hmem
  cases hstage : call.stage with
  | picking => exact absurd hstage (hnotPicking call hmem)
  | running channel => exact absurd hstage (hnotRunning call hmem channel)
  | done => exact ⟨rfl, over_of_still h hstill hget (by simp [Call.started, hstage])⟩
  | waiting =>
    have hacquire : ∃ next, pool.step s.pool .acquire = some next := by
      simp [BackendPool.step, hfree, hpos]
    obtain ⟨next, hacquire⟩ := hacquire
    have hblocked := hstill (.acquire i) rfl
    rw [step_iff.mpr (.acquire hget hstage hacquire)] at hblocked
    cases hblocked

end ends

/-! ## Two calls and one permit -/

def onePermit : BackendPool := ⟨.bits64, 1, 1, by decide⟩

/-- Two calls are made and the first runs, up to where its token is refused; the second
    still waits for the permit. -/
def exampleCalls : List ProxyLabel :=
  [.call exampleSetup, .call exampleSetup, .acquire 0, .pick 0,
    .tunnel 0 (.client .sendOpen), .tunnel 0 (.client .badToken)]

theorem runs_apart_example :
    ∃ s, (system onePermit).run ⟨onePermit.fresh, []⟩ exampleCalls = some s ∧
      s.calls.length = 2 ∧ BackendPool.load s.pool 0 = 1 ∧
      s.calls.countP (fun call => call.stage = .running 0) = 1 := by
  obtain ⟨s, hrun⟩ : ∃ s,
      (system onePermit).run ⟨onePermit.fresh, []⟩ exampleCalls = some s := ⟨_, rfl⟩
  have hseen : ((system onePermit).run ⟨onePermit.fresh, []⟩ exampleCalls).map
      (fun s => (s.calls.length, BackendPool.load s.pool 0)) = some (2, 1) := rfl
  rw [hrun, Option.map_some, Option.some.injEq, Prod.mk.injEq] at hseen
  have hloads := (runs_apart (Lts.System.reachable_of_run (.init rfl) hrun)).2.2.2 0
  exact ⟨s, hrun, hseen.1, hseen.2, hloads ▸ hseen.2⟩

theorem every_call_ends_example :
    ∃ s, (system onePermit).run ⟨onePermit.fresh, []⟩ exampleCalls = some s ∧
      s.pool.available = 0 ∧ s.calls.countP Call.holdsPermit = 1 ∧
      ∃ l s', l.due s = true ∧ s.step onePermit l = some s' := by
  obtain ⟨s, hrun⟩ : ∃ s,
      (system onePermit).run ⟨onePermit.fresh, []⟩ exampleCalls = some s := ⟨_, rfl⟩
  have hseen : ((system onePermit).run ⟨onePermit.fresh, []⟩ exampleCalls).map
      (fun s => s.pool.available) = some 0 := rfl
  rw [hrun, Option.map_some, Option.some.injEq] at hseen
  have hr := Lts.System.reachable_of_run (.init rfl) hrun
  have hpermits := (inv_of_reachable hr).permits_eq
  have hone : onePermit.permits = 1 := rfl
  rw [hseen, hone, Nat.zero_add] at hpermits
  refine ⟨s, hrun, hseen, hpermits, ?_⟩
  rcases (every_call_ends (by decide) hr).2 with hover | hdue
  · rw [hover.permits, hone] at hseen
    cases hseen
  · exact hdue

end ProxyState

end EchProxy
