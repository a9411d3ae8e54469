import EchProxy.Framework.Lts

/-! # Reliable Pipes

    What a byte stream transport is for, with nothing said about how it works:
    items go in at one end, and what has come out at the other end is always a
    prefix of what went in.  How much is under way at any time, and whether
    the rest ever arrives, is left open.
-/

/-- A one-way pipe, by what went in and what came out so far. -/
structure Pipe (α : Type u) where
  offered : List α
  delivered : List α

namespace Pipe

variable {α : Type u} [DecidableEq α]

/-- Some items go in and some come out: only items that went in, in order. -/
def step (p : Pipe α) (move : List α × List α) : Option (Pipe α) :=
  if p.delivered ++ move.2 <+: p.offered ++ move.1 then
    some ⟨p.offered ++ move.1, p.delivered ++ move.2⟩
  else none

/-- A pipe that already holds `first`. -/
def system (first : List α) : Lts.System (Pipe α) (List α × List α) where
  init := fun p => p = ⟨first, []⟩
  step := step

/-- **What comes out is a prefix of what went in.** -/
theorem delivered_prefix {first : List α} {p : Pipe α} (hr : (system first).Reachable p) :
    p.delivered <+: p.offered := by
  refine Lts.System.invariant (system first) (fun p => p.delivered <+: p.offered) ?_ ?_ p hr
  · rintro p rfl
    exact List.nil_prefix
  · intro p move p' _ hs
    simp only [system, step, Option.ite_none_right_eq_some, Option.some.injEq] at hs
    obtain ⟨hpre, rfl⟩ := hs
    exact hpre

/-- Two states of a pipe are a step apart as soon as both ends only grow and
    the later one keeps the order. -/
theorem step_of_prefix {p p' : Pipe α} (hoffered : p.offered <+: p'.offered)
    (hdelivered : p.delivered <+: p'.delivered) (horder : p'.delivered <+: p'.offered) :
    ∃ move, p.step move = some p' := by
  obtain ⟨as, has⟩ := hoffered
  obtain ⟨bs, hbs⟩ := hdelivered
  refine ⟨(as, bs), ?_⟩
  simp only [step, has, hbs]
  rw [if_pos horder]

end Pipe
