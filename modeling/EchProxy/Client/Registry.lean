import EchProxy.Client.Auth
import EchProxy.Client.Pool
import EchProxy.Ech.Connect

/-! # The Pool Registry (`PoolRegistry` and `BackendPool::connect` in
    `client/src/grpc_pool.rs`)

    One pool for each entry of `backends`, under the entry's id.  A pool keeps
    the entry it is made from and the channels it has connected; the first
    channel or pool that fails ends the start.
-/

namespace EchProxy

open Checked Traced

variable {w : Width}

/-! ## Pools -/

/-- `BackendConfig`, with what a pool reads of it. -/
structure BackendEntry (w : Width) extends BackendConfig where
  authToken : Text
  /-- `pool_size` and `max_streams_per_channel`. -/
  sizes : PoolSizes w

/-- `BackendPool`, with its channels. -/
structure ConnectedPool (w : Width) where
  backend : BackendEntry w
  channels : List Ech.Channel
  channels_pos : 0 < channels.length
  /-- The permits of the semaphore. -/
  permits : Nat

/-- The `for` loop that connects the channels, from channel `i` on.  The world may
    answer each of them differently. -/
def connectChannels (world : Nat → Ech.World w) (backend : BackendConfig) (ech : EchConfig) :
    (n i : Nat) → Traced Fault Ech.Event { channels : List Ech.Channel // channels.length = n }
  | 0, _ => return ⟨[], rfl⟩
  | n + 1, i => do
    let channel ← Ech.connectChannel (world i) backend ech
    let ⟨channels, hlength⟩ ← connectChannels world backend ech n (i + 1)
    return ⟨channel :: channels, congrArg Nat.succ hlength⟩

namespace ConnectedPool

/-- The pool as it takes turns and gives permits. -/
def turns (pool : ConnectedPool w) : BackendPool :=
  ⟨w, pool.channels.length, pool.permits, pool.channels_pos⟩

/-- `BackendPool::connect`. -/
def connect (overflowChecks : Bool) (world : Nat → Ech.World w) (backend : BackendEntry w)
    (ech : EchConfig) : Traced Fault Ech.Event (ConnectedPool w) := do
  let ⟨channels, hlength⟩ ←
    connectChannels world backend.toBackendConfig ech backend.sizes.channels 0
  match BackendPool.connect overflowChecks backend.sizes with
  -- the product or the count of the semaphore is too large
  | none => Traced.lift (.error (.panic .overflow))
  | some pool =>
    return ⟨backend, channels, hlength ▸ Nat.lt_of_lt_of_le Nat.one_pos (Nat.le_max_right _ 1),
      pool.permits⟩

/-- What a pool is made from: it has a channel at least, whatever `pool_size`
    says. -/
structure MadeFrom (overflowChecks : Bool) (entry : BackendEntry w) (pool : ConnectedPool w) :
    Prop where
  backend : pool.backend = entry
  channels : pool.channels.length = max entry.sizes.poolSize 1
  turns : BackendPool.connect overflowChecks entry.sizes = some pool.turns

theorem madeFrom_of_connect {overflowChecks : Bool} {world : Nat → Ech.World w}
    {entry : BackendEntry w} {ech : EchConfig} {pool : ConnectedPool w}
    (h : (connect overflowChecks world entry ech).result = .ok pool) :
    MadeFrom overflowChecks entry pool := by
  rw [connect, result_bind, Result.bind_eq_ok] at h
  obtain ⟨⟨channels, hlength⟩, -, h⟩ := h
  dsimp only at h
  cases hpool : BackendPool.connect overflowChecks entry.sizes with
  | none =>
    rw [hpool] at h
    cases h
  | some made =>
    rw [hpool] at h
    obtain rfl := Except.ok.inj h
    refine ⟨rfl, hlength, ?_⟩
    have hwidth := BackendPool.width_of_connect hpool
    have hchannels := (BackendPool.connect_spec hpool).1
    obtain ⟨width, n, permits, hpos⟩ := made
    obtain rfl : width = w := hwidth
    obtain rfl : n = channels.length := hchannels.trans hlength.symm
    exact hpool

end ConnectedPool

/-! ## The registry -/

/-- `PoolRegistry`. -/
structure PoolRegistry (w : Width) where
  pools : HashMap (ConnectedPool w)

namespace PoolRegistry

def get (registry : PoolRegistry w) (id : Text) : Option (ConnectedPool w) :=
  registry.pools.lookup id

/-- The `for` loop over the entries. -/
def connectEach (overflowChecks : Bool) (world : Text → Nat → Ech.World w) (ech : EchConfig) :
    HashMap (BackendEntry w) → Traced Fault Ech.Event (HashMap (ConnectedPool w))
  | [] => return []
  | (id, backend) :: backends => do
    let outcome ← observe (ConnectedPool.connect overflowChecks (world id) backend ech)
    let pool ← withContext s!"failed to initialize backend {String.ofList id}" outcome
    let pools ← connectEach overflowChecks world ech backends
    return (id, pool) :: pools

def connect (overflowChecks : Bool) (world : Text → Nat → Ech.World w)
    (backends : HashMap (BackendEntry w)) (ech : EchConfig) :
    Traced Fault Ech.Event (PoolRegistry w) :=
  if backends.isEmpty then bail "backends must contain at least one backend"
  else do
    let pools ← connectEach overflowChecks world ech backends
    return ⟨pools⟩

theorem connectEach_made {overflowChecks : Bool} {world : Text → Nat → Ech.World w}
    {ech : EchConfig} {backends : HashMap (BackendEntry w)} {pools : HashMap (ConnectedPool w)}
    (h : (connectEach overflowChecks world ech backends).result = .ok pools) :
    Assoc.Made (fun id entry pool =>
      (ConnectedPool.connect overflowChecks (world id) entry ech).result = .ok pool)
      backends pools := by
  induction backends generalizing pools with
  | nil =>
    obtain rfl := Except.ok.inj h
    exact .nil
  | cons first backends ih =>
    obtain ⟨id, entry⟩ := first
    rw [connectEach, observe_bind] at h
    dsimp only at h
    rw [result_bind, Result.bind_eq_ok] at h
    obtain ⟨pool, hpool, h⟩ := h
    rw [result_bind, Result.bind_eq_ok] at h
    obtain ⟨rest, hrest, h⟩ := h
    obtain rfl := Except.ok.inj h
    exact .cons ⟨rfl, withContext_eq_ok.mp hpool⟩ (ih hrest)

/-- **The registry has the pools of the entries**: under an id there is a pool iff
    there is an entry, and it is the pool connected from that entry. -/
theorem get_of_connect {overflowChecks : Bool} {world : Text → Nat → Ech.World w}
    {backends : HashMap (BackendEntry w)} {ech : EchConfig} {registry : PoolRegistry w}
    (h : (connect overflowChecks world backends ech).result = .ok registry) (id : Text) :
    Option.Rel (fun entry pool =>
      (ConnectedPool.connect overflowChecks (world id) entry ech).result = .ok pool)
      (backends.lookup id) (registry.get id) := by
  unfold connect at h
  split at h
  · cases h
  · rw [result_bind, Result.bind_eq_ok] at h
    obtain ⟨pools, hpools, h⟩ := h
    obtain rfl := Except.ok.inj h
    exact (connectEach_made hpools).lookup id

end PoolRegistry

end EchProxy
