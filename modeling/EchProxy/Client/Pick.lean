import EchProxy.Client.Registry
import EchProxy.Framework.RoundRobin

/-! # Picking a Channel (`BackendPool::pick` in `client/src/grpc_pool.rs`)

    A pick takes the old value of a shared counter and advances it, in one
    atomic step, and then works on this value alone.  Any number of tasks pick
    at the same time; between the two parts of a pick others may run.

    The picks are kept in the order in which they have advanced the counter,
    which is the order in which the channels take turns.
-/

namespace EchProxy

open Checked Lts RoundRobin

variable {w : Width}

/-! ## One pick -/

/-- `fetch_add(1)`, which wraps around: the old value, and the counter after
    it. -/
def fetchAdd (w : Width) (next : Nat) : Nat × Nat := (next, (next + 1) % (w.usizeMax + 1))

/-- `a % b` on `usize`; `none` where it panics. -/
def remUsize (a b : Nat) : Option Nat := if b = 0 then none else some (a % b)

namespace ConnectedPool

/-- The rest of `pick`, with the old value of the counter: the index and the
    channel; `none` where it panics. -/
def choose (pool : ConnectedPool w) (turn : Nat) : Option (Nat × Ech.Channel) := do
  let idx ← remUsize turn pool.channels.length
  let channel ← pool.channels[idx]?
  return (idx, channel)

/-- `pick`, undisturbed: the channel, and the counter after it. -/
def pick (pool : ConnectedPool w) (next : Nat) : Option Ech.Channel × Nat :=
  let (turn, next) := fetchAdd w next
  ((pool.choose turn).map Prod.snd, next)

/-- Every value of the counter leads to a channel. -/
theorem choose_eq (pool : ConnectedPool w) (turn : Nat) :
    ∃ channel, pool.channels[turn % pool.channels.length]? = some channel ∧
      pool.choose turn = some (turn % pool.channels.length, channel) := by
  have hlt : turn % pool.channels.length < pool.channels.length :=
    Nat.mod_lt _ pool.channels_pos
  have hget := List.getElem?_eq_getElem hlt
  refine ⟨_, hget, ?_⟩
  rw [choose, remUsize, if_neg (Nat.ne_of_gt pool.channels_pos)]
  simp only [Option.bind_eq_bind, Option.bind_some, hget]
  rfl

end ConnectedPool

/-! ## Picks of many tasks -/

/-- How far a pick has come. -/
inductive Progress where
  /-- It has the old value of the counter. -/
  | fetched
  | chose (idx : Nat) (channel : Ech.Channel)
  | panicked
  deriving DecidableEq

/-- A pick, with the value of the counter it has taken. -/
structure Pick where
  task : Nat
  turn : Nat
  progress : Progress
  deriving DecidableEq

/-- The task is in this pick. -/
def Pick.Pending (task : Nat) (p : Pick) : Prop := p.task = task ∧ p.progress = .fetched

instance (task : Nat) (p : Pick) : Decidable (p.Pending task) :=
  inferInstanceAs (Decidable (_ ∧ _))

structure PickState where
  next : Nat
  /-- The picks, in the order in which they have advanced the counter. -/
  picks : List Pick
  deriving DecidableEq

inductive PickLabel where
  /-- A task that is in no pick begins one. -/
  | fetchAdd (task : Nat)
  /-- A task finishes the pick it is in. -/
  | choose (task : Nat)
  deriving DecidableEq

namespace ConnectedPool

/-- What becomes of a pick. -/
def outcome (pool : ConnectedPool w) (turn : Nat) : Progress :=
  match pool.choose turn with
  | some (idx, channel) => .chose idx channel
  | none => .panicked

/-- The pick of the task goes on. -/
def finish (pool : ConnectedPool w) (task : Nat) (p : Pick) : Pick :=
  if p.Pending task then { p with progress := pool.outcome p.turn } else p

def pickStep (pool : ConnectedPool w) (s : PickState) : PickLabel → Option PickState
  | .fetchAdd task =>
    if ∃ p ∈ s.picks, p.Pending task then none
    else
      let (turn, next) := fetchAdd w s.next
      some { next, picks := s.picks ++ [⟨task, turn, .fetched⟩] }
  | .choose task =>
    if ∃ p ∈ s.picks, p.Pending task then
      some { s with picks := s.picks.map (pool.finish task) }
    else none

/-- The tasks on a fresh pool. -/
def picking (pool : ConnectedPool w) : System PickState PickLabel where
  init := fun s => s = ⟨0, []⟩
  step := pool.pickStep

/-! ## What holds of the picks -/

section runs
variable {pool : ConnectedPool w} {s s' : PickState}

/-- The counter goes through its values in order, and what becomes of a pick is
    settled by the value it has taken. -/
structure PickInv (pool : ConnectedPool w) (s : PickState) : Prop where
  next : s.next = s.picks.length % (w.usizeMax + 1)
  turns : s.picks.map Pick.turn = RoundRobin.turns (w.usizeMax + 1) 0 s.picks.length
  progress : ∀ p ∈ s.picks, p.progress = .fetched ∨ p.progress = pool.outcome p.turn

theorem finish_turn (pool : ConnectedPool w) (task : Nat) (p : Pick) :
    (pool.finish task p).turn = p.turn := by
  unfold finish
  split <;> rfl

theorem finish_progress {p : Pick} (task : Nat)
    (h : p.progress = .fetched ∨ p.progress = pool.outcome p.turn) :
    (pool.finish task p).progress = .fetched ∨
      (pool.finish task p).progress = pool.outcome (pool.finish task p).turn := by
  unfold finish
  split
  · exact .inr rfl
  · exact h

theorem PickInv.step {l : PickLabel} (h : PickInv pool s) (hs : pool.pickStep s l = some s') :
    PickInv pool s' := by
  cases l with
  | fetchAdd task =>
    simp only [pickStep, fetchAdd, Option.ite_none_left_eq_some, Option.some.injEq] at hs
    obtain ⟨-, rfl⟩ := hs
    refine ⟨?_, ?_, ?_⟩
    · rw [List.length_append, List.length_singleton]
      dsimp only
      rw [h.next, Nat.mod_add_mod]
    · rw [List.map_append, h.turns, List.length_append, turns_add, h.next, Nat.zero_add]
      rfl
    · intro p hp
      rcases List.mem_append.mp hp with hold | hnew
      · exact h.progress p hold
      · rw [List.mem_singleton.mp hnew]
        exact .inl rfl
  | choose task =>
    simp only [pickStep, Option.ite_none_right_eq_some, Option.some.injEq] at hs
    obtain ⟨-, rfl⟩ := hs
    refine ⟨?_, ?_, ?_⟩
    · rw [List.length_map]
      exact h.next
    · rw [List.map_map, List.length_map, ← h.turns]
      exact List.map_congr_left fun p _ => pool.finish_turn task p
    · intro p hp
      obtain ⟨q, hq, rfl⟩ := List.mem_map.mp hp
      exact finish_progress task (h.progress q hq)

theorem pickInv_of_reachable (hr : pool.picking.Reachable s) : PickInv pool s := by
  refine System.invariant pool.picking (PickInv pool) ?_ ?_ s hr
  · rintro s rfl
    refine ⟨?_, rfl, ?_⟩
    · exact (Nat.zero_mod _).symm
    · intro p hp
      cases hp
  · intro s l s' h hs
    exact h.step hs

/-! ## Turns -/

/-- The index a pick has chosen. -/
def chosenIdx (p : Pick) : Option Nat :=
  match p.progress with
  | .chose idx _ => some idx
  | _ => none

/-- The indices that were chosen, in the order of the counter. -/
def chosen (picks : List Pick) : List Nat := picks.filterMap chosenIdx

/-- All of the picks have ended. -/
def Ended (picks : List Pick) : Prop := ∀ p ∈ picks, p.progress ≠ .fetched

/-- A pick that has ended has chosen the channel whose turn it was. -/
theorem PickInv.chose (h : PickInv pool s) {p : Pick} (hp : p ∈ s.picks)
    (hended : p.progress ≠ .fetched) :
    ∃ channel, pool.channels[p.turn % pool.channels.length]? = some channel ∧
      p.progress = .chose (p.turn % pool.channels.length) channel := by
  obtain ⟨channel, hget, hchoose⟩ := pool.choose_eq p.turn
  refine ⟨channel, hget, ?_⟩
  rw [(h.progress p hp).resolve_left hended, outcome, hchoose]

/-- Up to the wrap of the counter the `i`-th pick has the value `i`. -/
theorem PickInv.turns_eq (h : PickInv pool s) (hm : s.picks.length ≤ w.usizeMax + 1) :
    s.picks.map Pick.turn = List.range' 0 s.picks.length := by
  rw [h.turns, RoundRobin.turns]
  calc (List.range' 0 s.picks.length).map (· % (w.usizeMax + 1))
      = (List.range' 0 s.picks.length).map id := by
        apply List.map_congr_left
        intro i hi
        have hlt := (List.mem_range'_1.mp hi).2
        exact Nat.mod_eq_of_lt (by omega)
    _ = List.range' 0 s.picks.length := List.map_id _

/-- **Consecutive picks take turns.** -/
theorem PickInv.chosen_eq (h : PickInv pool s) (hm : s.picks.length ≤ w.usizeMax + 1) (k len : Nat)
    (hlen : k + len ≤ s.picks.length) (hended : Ended ((s.picks.drop k).take len)) :
    chosen ((s.picks.drop k).take len) = RoundRobin.turns pool.channels.length k len := by
  have hturns : ((s.picks.drop k).take len).map Pick.turn = List.range' k len := by
    rw [List.map_take, List.map_drop, h.turns_eq hm, List.drop_range', List.take_range'_of_length_ge]
    · simp
    · omega
  have hidx : chosen ((s.picks.drop k).take len) =
      ((s.picks.drop k).take len).map fun p => p.turn % pool.channels.length := by
    rw [chosen, ← List.filterMap_eq_map]
    apply List.filterMap_congr
    intro p hp
    have hmem : p ∈ s.picks := List.mem_of_mem_drop (List.mem_of_mem_take hp)
    obtain ⟨channel, -, hchose⟩ := h.chose hmem (hended p hp)
    rw [chosenIdx, hchose]
    rfl
  rw [hidx, RoundRobin.turns, ← hturns, List.map_map]
  rfl

/-- The picks of a run are balanced, and take turns. -/
structure TakesTurns (pool : ConnectedPool w) (picks : List Pick) : Prop where
  balanced : Ended picks → ∀ i j, i < pool.channels.length → j < pool.channels.length →
    (chosen picks).count i ≤ (chosen picks).count j + 1
  /-- As many picks in a row as there are channels choose each of them once. -/
  each_once : ∀ k, k + pool.channels.length ≤ picks.length →
    Ended ((picks.drop k).take pool.channels.length) → ∀ i < pool.channels.length,
    (chosen ((picks.drop k).take pool.channels.length)).count i = 1

theorem PickInv.takesTurns (h : PickInv pool s) (hm : s.picks.length ≤ w.usizeMax + 1) :
    TakesTurns pool s.picks where
  balanced := by
    intro hended i j hi hj
    -- all picks are the picks from the first on
    have hall : (s.picks.drop 0).take s.picks.length = s.picks := by simp
    have hchosen := h.chosen_eq hm 0 s.picks.length (by omega) (hall.symm ▸ hended)
    rw [hall] at hchosen
    rw [hchosen]
    exact count_balanced hi hj 0 s.picks.length
  each_once := by
    intro k hk hended i hi
    rw [h.chosen_eq hm k _ hk hended]
    exact count_round hi k

/-- **Picking is balanced and always in range**: every value of the counter leads to
    a channel of the pool, also where the picks of any number of tasks
    interleave; and as long as the counter of a fresh pool has not gone through
    all its values, the channels take turns. -/
theorem pick_round_robin (pool : ConnectedPool w) :
    (∀ next, ∃ idx channel, pool.channels[idx]? = some channel ∧
      pool.choose next = some (idx, channel) ∧ (pool.pick next).1 = some channel) ∧
    (∀ s, pool.picking.Reachable s → ∀ p ∈ s.picks, p.progress ≠ .fetched →
      ∃ idx channel, pool.channels[idx]? = some channel ∧ p.progress = .chose idx channel) ∧
    ∀ s, pool.picking.Reachable s → s.picks.length ≤ w.usizeMax + 1 →
      TakesTurns pool s.picks := by
  refine ⟨?_, ?_, ?_⟩
  · intro next
    obtain ⟨channel, hget, hchoose⟩ := pool.choose_eq next
    refine ⟨_, channel, hget, hchoose, ?_⟩
    rw [pick, fetchAdd]
    dsimp only
    rw [hchoose]
    rfl
  · intro s hr p hp hended
    obtain ⟨channel, hget, hchose⟩ := (pickInv_of_reachable hr).chose hp hended
    exact ⟨_, channel, hget, hchose⟩
  · intro s hr hm
    exact (pickInv_of_reachable hr).takesTurns hm

end runs

/-! ## Three picks -/

/-- A pool of two channels. -/
def twoChannels : ConnectedPool .bits64 where
  backend := {
    endpoint := "http://10.0.0.9:50051".toList
    connectAddr := none
    ech := false
    echName := none
    echBootstrapDoh := none
    echPolicy := none
    tlsDomain := none
    caCert := none
    authToken := "token".toList
    sizes := BackendPool.defaultSizes }
  channels := List.replicate 2 ⟨.ordinary "http://10.0.0.9:50051".toList none⟩
  channels_pos := by decide
  permits := 256

/-- A task picks twice while another one is in its pick. -/
def threePicks : List PickLabel :=
  [.fetchAdd 0, .fetchAdd 1, .choose 1, .fetchAdd 1, .choose 1, .choose 0]

/-- They have chosen the channels 0, 1 and 0. -/
theorem pick_round_robin_example :
    ∃ s, twoChannels.picking.Reachable s ∧ chosen s.picks = [0, 1, 0] ∧
      TakesTurns twoChannels s.picks := by
  obtain ⟨s, hrun⟩ : ∃ s, twoChannels.picking.run ⟨0, []⟩ threePicks = some s := ⟨_, rfl⟩
  have hr := System.reachable_of_run (.init rfl) hrun
  have hpicks : (twoChannels.picking.run ⟨0, []⟩ threePicks).map (fun s => chosen s.picks) =
      some [0, 1, 0] := rfl
  have hlength : (twoChannels.picking.run ⟨0, []⟩ threePicks).map (fun s => s.picks.length) =
      some 3 := rfl
  rw [hrun] at hpicks hlength
  have hthree : s.picks.length = 3 := Option.some.inj hlength
  have hm : s.picks.length ≤ Width.bits64.usizeMax + 1 := by
    rw [hthree]
    decide
  exact ⟨s, hr, Option.some.inj hpicks, (pick_round_robin twoChannels).2.2 s hr hm⟩

end ConnectedPool

end EchProxy
