import EchProxy.Framework.Checked
import EchProxy.Framework.Lts

/-! # The Backend Pool (`client/src/grpc_pool.rs`)

    A pool of channels with one semaphore for all of them.  A tunnel takes a
    permit, then the next channel in turn, and gives the permit back when it
    ends.  Tunnels start and end in any order; between its permit and its
    channel a tunnel may be overtaken.

    The semaphore bounds the tunnels of the pool.  Which of them are still
    running is not what the turn of the channels looks at, so the bound of one
    channel is the one of the whole pool.
-/

namespace EchProxy

open Checked

/-! ## Setting a pool up -/

/-- `pool_size` and `max_streams_per_channel` of a backend, two `usize`. -/
structure PoolSizes (w : Width) where
  poolSize : Nat
  maxStreamsPerChannel : Nat
  poolSize_le : poolSize ≤ w.usizeMax
  maxStreams_le : maxStreamsPerChannel ≤ w.usizeMax

def defaultPoolSize : Nat := 2

def defaultMaxStreamsPerChannel : Nat := 128

namespace PoolSizes

variable {w : Width}

/-- The number of channels: at least one. -/
def channels (sizes : PoolSizes w) : Nat := max sizes.poolSize 1

/-- The tunnels one channel is meant to carry: at least one. -/
def limit (sizes : PoolSizes w) : Nat := max sizes.maxStreamsPerChannel 1

end PoolSizes

/-- `a * b` on `usize`.  A build with overflow checks panics where the product
    does not fit, one without wraps around. -/
def mulUsize (w : Width) (overflowChecks : Bool) (a b : Nat) : Option Nat :=
  if a * b ≤ w.usizeMax then some (a * b)
  else if overflowChecks then none
  else some (a * b % (w.usizeMax + 1))

/-- `Semaphore::MAX_PERMITS`. -/
def maxPermits (w : Width) : Nat := w.usizeMax >>> 3

/-- `BackendPool`, by its channels and the permits of its semaphore. -/
structure BackendPool where
  width : Width
  channels : Nat
  permits : Nat
  channels_pos : 0 < channels

/-- `BackendPool::connect`, once its channels are connected; `none` where it
    panics. -/
def BackendPool.connect {w : Width} (overflowChecks : Bool) (sizes : PoolSizes w) :
    Option BackendPool := do
  let permits ← mulUsize w overflowChecks sizes.channels sizes.limit
  -- the assertion in `Semaphore::new`
  if permits ≤ maxPermits w then
    return ⟨w, sizes.channels, permits, Nat.lt_of_lt_of_le Nat.one_pos (Nat.le_max_right _ 1)⟩
  else none

/-! ## The tunnels of a pool -/

/-- A pool in use. -/
structure PoolState where
  /-- The counter of `pick`. -/
  next : Nat
  /-- The free permits. -/
  available : Nat
  /-- The tunnels with a permit that have not picked a channel. -/
  waiting : Nat
  /-- The channels of the running tunnels, in the order they were picked. -/
  active : List Nat
  deriving DecidableEq

/-- What can happen in a pool. -/
inductive PoolLabel where
  /-- `acquire_stream_permit` comes back. -/
  | acquire
  /-- `pick`. -/
  | pick
  /-- A running tunnel ends: its permit is dropped. -/
  | finish (k : Nat)
  deriving DecidableEq

namespace BackendPool

def fresh (pool : BackendPool) : PoolState where
  next := 0
  available := pool.permits
  waiting := 0
  active := []

/-- One step of a pool. -/
def step (pool : BackendPool) (s : PoolState) : PoolLabel → Option PoolState
  | .acquire =>
    if 0 < s.available then
      some { s with available := s.available - 1, waiting := s.waiting + 1 }
    else none
  | .pick =>
    if 0 < s.waiting then
      some
        { s with
          -- `fetch_add` wraps around
          next := (s.next + 1) % (pool.width.usizeMax + 1)
          waiting := s.waiting - 1
          active := s.active ++ [s.next % pool.channels] }
    else none
  | .finish k =>
    if k < s.active.length then
      some { s with available := s.available + 1, active := s.active.eraseIdx k }
    else none

def system (pool : BackendPool) : Lts.System PoolState PoolLabel where
  init := fun s => s = pool.fresh
  step := pool.step

/-- The running tunnels of a channel. -/
def load (s : PoolState) (channel : Nat) : Nat := s.active.count channel

/-- No channel carries more than `limit` tunnels, whatever happened. -/
def Bounded (pool : BackendPool) (limit : Nat) : Prop :=
  ∀ s, pool.system.Reachable s → ∀ channel < pool.channels, load s channel ≤ limit

/-! ## The permits -/

section permits
variable {pool : BackendPool} {s s' : PoolState}

/-- A permit is free, or with a tunnel that waits or runs. -/
structure Inv (pool : BackendPool) (s : PoolState) : Prop where
  permits : s.available + s.waiting + s.active.length = pool.permits
  next_le : s.next ≤ pool.width.usizeMax

theorem Inv.step {l : PoolLabel} (h : Inv pool s) (hs : pool.step s l = some s') :
    Inv pool s' := by
  have hpermits := h.permits
  cases l with
  | acquire =>
    simp only [BackendPool.step, Option.ite_none_right_eq_some, Option.some.injEq] at hs
    obtain ⟨hfree, rfl⟩ := hs
    exact ⟨by dsimp only; omega, h.next_le⟩
  | pick =>
    simp only [BackendPool.step, Option.ite_none_right_eq_some, Option.some.injEq] at hs
    obtain ⟨hwait, rfl⟩ := hs
    refine ⟨?_, Nat.le_of_lt_succ (Nat.mod_lt _ (Nat.succ_pos _))⟩
    rw [List.length_append, List.length_singleton]
    dsimp only
    omega
  | finish k =>
    simp only [BackendPool.step, Option.ite_none_right_eq_some, Option.some.injEq] at hs
    obtain ⟨hk, rfl⟩ := hs
    refine ⟨?_, h.next_le⟩
    have hlength := List.length_eraseIdx_add_one hk
    dsimp only
    omega

theorem inv_of_reachable (hr : pool.system.Reachable s) : Inv pool s := by
  refine Lts.System.invariant pool.system (Inv pool) ?_ ?_ s hr
  · rintro s rfl
    exact ⟨by simp [fresh], Nat.zero_le _⟩
  · intro s l s' h hs
    exact h.step hs

/-- The tunnels of a channel hold permits. -/
theorem Inv.load_le (h : Inv pool s) (channel : Nat) : load s channel ≤ pool.permits := by
  have hcount : load s channel ≤ s.active.length := List.count_le_length
  have hpermits := h.permits
  omega

/-! ## Filling one channel -/

/-- A tunnel starts, and is over before the next. -/
theorem pass_turn (hfree : 0 < s.available) (hwait : s.waiting = 0) :
    pool.system.run s [.acquire, .pick, .finish s.active.length] =
      some { s with next := (s.next + 1) % (pool.width.usizeMax + 1) } := by
  obtain ⟨next, available, waiting, active⟩ := s
  obtain rfl : waiting = 0 := hwait
  have hback : available - 1 + 1 = available := Nat.sub_add_cancel hfree
  have hfree' : 0 < available := hfree
  simp [system, step, hfree', hback, List.eraseIdx_append_of_length_le]

/-- A tunnel starts on the first channel when it is its turn. -/
theorem take_turn (hfree : 0 < s.available) (hwait : s.waiting = 0)
    (hturn : s.next % pool.channels = 0) :
    pool.system.run s [.acquire, .pick] =
      some
        { next := (s.next + 1) % (pool.width.usizeMax + 1)
          available := s.available - 1
          waiting := 0
          active := s.active ++ [0] } := by
  simp [system, step, hfree, hwait, hturn]

/-- The turn comes back to the first channel, at the latest when the counter wraps
    around. -/
theorem reach_turn (hr : pool.system.Reachable s) (hfree : 0 < s.available)
    (hwait : s.waiting = 0) :
    ∃ next, next % pool.channels = 0 ∧ pool.system.Reachable { s with next := next } := by
  have hle := (inv_of_reachable hr).next_le
  -- induction on the distance to the wrap
  obtain ⟨d, hd⟩ : ∃ d, s.next + d = pool.width.usizeMax := ⟨_, Nat.add_sub_cancel' hle⟩
  induction d generalizing s with
  | zero =>
    have hnext := Lts.System.reachable_of_run hr (pass_turn hfree hwait)
    refine ⟨0, Nat.zero_mod _, ?_⟩
    have hwrap : (s.next + 1) % (pool.width.usizeMax + 1) = 0 := by
      rw [show s.next + 1 = pool.width.usizeMax + 1 by omega, Nat.mod_self]
    rwa [hwrap] at hnext
  | succ d ih =>
    by_cases hturn : s.next % pool.channels = 0
    · exact ⟨s.next, hturn, hr⟩
    · have hnext := Lts.System.reachable_of_run hr (pass_turn hfree hwait)
      have hsucc : (s.next + 1) % (pool.width.usizeMax + 1) = s.next + 1 :=
        Nat.mod_eq_of_lt (by omega)
      rw [hsucc] at hnext
      obtain ⟨next, hnext', hr'⟩ := ih hnext hfree hwait (by dsimp only; omega)
        (by dsimp only; omega)
      exact ⟨next, hnext', hr'⟩

/-- **The first channel can take all permits**: the tunnels of the others end
    at once. -/
theorem fill_first (n : Nat) (hn : n ≤ pool.permits) :
    ∃ s, pool.system.Reachable s ∧ s.waiting = 0 ∧ s.active = List.replicate n 0 := by
  induction n with
  | zero => exact ⟨pool.fresh, .init rfl, rfl, rfl⟩
  | succ n ih =>
    obtain ⟨s, hr, hwait, hactive⟩ := ih (by omega)
    have hpermits := (inv_of_reachable hr).permits
    have hfree : 0 < s.available := by
      rw [hactive, List.length_replicate, hwait] at hpermits
      omega
    obtain ⟨next, hturn, hr'⟩ := reach_turn hr hfree hwait
    refine ⟨_, Lts.System.reachable_of_run hr' (take_turn hfree hwait hturn), rfl, ?_⟩
    rw [hactive, ← List.replicate_succ']

/-- A channel is bounded by what bounds the pool, and by nothing less. -/
theorem bounded_iff (limit : Nat) : pool.Bounded limit ↔ pool.permits ≤ limit := by
  constructor
  · intro h
    obtain ⟨s, hr, -, hactive⟩ := fill_first pool.permits (Nat.le_refl _)
    have hload := h s hr 0 pool.channels_pos
    rwa [load, hactive, List.count_replicate_self] at hload
  · intro hle s hr channel _
    exact Nat.le_trans ((inv_of_reachable hr).load_le channel) hle

end permits

/-! ## When a channel keeps to its limit -/

section limit
variable {w : Width} {overflowChecks : Bool} {sizes : PoolSizes w} {pool : BackendPool}

/-- The permits of a pool that is set up. -/
theorem connect_spec (h : connect overflowChecks sizes = some pool) :
    pool.channels = sizes.channels ∧
      pool.permits = sizes.channels * sizes.limit % (w.usizeMax + 1) := by
  simp only [connect, Option.bind_eq_bind, Option.bind_eq_some_iff,
    Option.ite_none_right_eq_some, Option.pure_def, Option.some.injEq] at h
  obtain ⟨permits, hpermits, -, rfl⟩ := h
  refine ⟨rfl, ?_⟩
  unfold mulUsize at hpermits
  split at hpermits
  · next hfits =>
    rw [Nat.mod_eq_of_lt (Nat.lt_succ_of_le hfits)]
    exact (Option.some.inj hpermits).symm
  · split at hpermits
    · cases hpermits
    · exact (Option.some.inj hpermits).symm

theorem width_of_connect (h : connect overflowChecks sizes = some pool) : pool.width = w := by
  simp only [connect, Option.bind_eq_bind, Option.bind_eq_some_iff,
    Option.ite_none_right_eq_some, Option.pure_def, Option.some.injEq] at h
  obtain ⟨permits, -, -, rfl⟩ := h
  rfl

/-- The product of the sizes does not fit, and wraps around to no more than the
    limit of one channel. -/
def WrapsLow (sizes : PoolSizes w) : Prop :=
  w.usizeMax < sizes.channels * sizes.limit ∧
    sizes.channels * sizes.limit % (w.usizeMax + 1) ≤ sizes.limit

/-- **Every channel keeps to `max_streams_per_channel` exactly when** there is one
    channel, or an unchecked product wraps around and leaves no more permits than
    one channel may take. -/
theorem limit_exact (h : connect overflowChecks sizes = some pool) :
    pool.Bounded sizes.limit ↔ sizes.poolSize ≤ 1 ∨ WrapsLow sizes := by
  have hlimit : 0 < sizes.limit := Nat.lt_of_lt_of_le Nat.one_pos (Nat.le_max_right _ 1)
  have hfits : sizes.limit ≤ w.usizeMax :=
    Nat.max_le.mpr ⟨sizes.maxStreams_le, by cases w <;> decide⟩
  rw [bounded_iff, (connect_spec h).2]
  by_cases hone : sizes.poolSize ≤ 1
  · -- one channel, which has all the permits
    have hchannels : sizes.channels = 1 := Nat.max_eq_right hone
    rw [hchannels, Nat.one_mul]
    exact ⟨fun _ => .inl hone, fun _ => Nat.mod_le _ _⟩
  · by_cases hwrap : w.usizeMax < sizes.channels * sizes.limit
    · exact ⟨fun hle => .inr ⟨hwrap, hle⟩, fun h => (h.resolve_left hone).2⟩
    · have hmany : sizes.limit < sizes.channels * sizes.limit := by
        have htwo : 2 ≤ sizes.channels := Nat.le_trans (by omega) (Nat.le_max_left _ 1)
        calc sizes.limit < 2 * sizes.limit := by omega
          _ ≤ sizes.channels * sizes.limit := Nat.mul_le_mul_right _ htwo
      rw [Nat.mod_eq_of_lt (by omega)]
      refine ⟨fun hle => absurd hle (by omega), fun h => ?_⟩
      exact absurd (h.resolve_left hone).1 hwrap

end limit

/-! ## The default sizes -/

/-- A backend without sizes of its own, on a 64-bit platform. -/
def defaultSizes : PoolSizes .bits64 :=
  ⟨defaultPoolSize, defaultMaxStreamsPerChannel, by decide, by decide⟩

/-- Two channels with 256 permits. -/
def defaultPool : BackendPool := ⟨.bits64, 2, 256, by decide⟩

/-- One channel. -/
def singleSizes : PoolSizes .bits64 := ⟨1, defaultMaxStreamsPerChannel, by decide, by decide⟩

theorem limit_exact_single :
    BackendPool.Bounded ⟨.bits64, 1, 128, by decide⟩ singleSizes.limit := by
  have hpool : connect false singleSizes = some ⟨.bits64, 1, 128, by decide⟩ := rfl
  exact (limit_exact hpool).mpr (.inl (by decide))

/-- All 256 tunnels of the default pool can end up on one channel. -/
theorem default_overloaded :
    connect false defaultSizes = some defaultPool ∧ ¬ defaultPool.Bounded defaultSizes.limit := by
  refine ⟨rfl, fun h => ?_⟩
  have hle : defaultPool.permits ≤ defaultSizes.limit := (bounded_iff _).mp h
  exact absurd hle (by decide)

end BackendPool

end EchProxy
