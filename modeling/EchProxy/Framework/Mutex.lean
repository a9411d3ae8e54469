import EchProxy.Framework.Lts

/-! # An Object behind a Mutex

    Threads call the operations of one object.  A call takes the mutex, reads
    the clock, works on the object with the time it has read, and releases the
    mutex; between any two of these steps other threads may run and the clock
    may advance.  Any number of threads may be started at any time.

    The calls take effect one after the other:

    * **Order**: the calls in the order in which they release the mutex have
      times that do not go back.
    * **Results**: each call returns what the object gives after the calls
      before it.
    * **Stages**: what holds where a thread starts, and where it goes on with a
      result, holds of all threads and of all calls.
-/

namespace Mutex

variable {A P C R S : Type}

/-! ## Objects and sequences of calls -/

/-- An object, whose operations read the clock. -/
structure Object (C R S : Type) where
  init : S
  /-- The result of a call at a time, and the object after it. -/
  run : C → Nat → S → R × S

/-- A call, with the time it reads. -/
structure Timed (C : Type) where
  call : C
  now : Nat
  deriving DecidableEq

/-- The clock does not go back. -/
def Ordered (calls : List (Timed C)) : Prop := calls.Pairwise fun a b => a.now ≤ b.now

/-- The object after a sequence of calls. -/
def Object.after (obj : Object C R S) (calls : List (Timed C)) : S :=
  calls.foldl (fun s timed => (obj.run timed.call timed.now s).2) obj.init

theorem Object.after_concat (obj : Object C R S) (calls : List (Timed C)) (timed : Timed C) :
    obj.after (calls ++ [timed]) = (obj.run timed.call timed.now (obj.after calls)).2 := by
  rw [Object.after, List.foldl_append]
  rfl

theorem Ordered.concat {calls : List (Timed C)} {timed : Timed C} (h : Ordered calls)
    (hlast : ∀ earlier ∈ calls, earlier.now ≤ timed.now) : Ordered (calls ++ [timed]) := by
  refine List.pairwise_append.mpr ⟨h, List.pairwise_singleton _ _, ?_⟩
  intro earlier hearlier last hmem
  rw [List.mem_singleton.mp hmem]
  exact hlast earlier hearlier

/-! ## Threads -/

/-- What a thread does: it goes through stages. -/
structure Program (A P C R : Type) where
  start : A → P
  /-- The call made at a stage, unless the thread is through. -/
  next : P → Option C
  /-- The stage after a result. -/
  resume : P → R → P

/-- A thread at a stage, outside the mutex or inside of it; inside, with the
    time it has read. -/
inductive Thread (P : Type) where
  | free (stage : P)
  | locked (stage : P) (now : Option Nat)

def Thread.stage : Thread P → P
  | .free stage => stage
  | .locked stage _ => stage

/-- A call that has released the mutex. -/
structure Done (P C R : Type) where
  thread : Nat
  /-- The stage at which the thread made the call. -/
  stage : P
  timed : Timed C
  result : R

structure State (P C R S : Type) where
  clock : Nat
  object : S
  /-- The thread that holds the mutex. -/
  holder : Option Nat
  threads : Nat → Option (Thread P)
  /-- The calls in the order of their releases. -/
  log : List (Done P C R)

inductive Label (A : Type) where
  | tick (d : Nat)
  | start (i : Nat) (arg : A)
  | lock (i : Nat)
  | readClock (i : Nat)
  | finish (i : Nat)

namespace State

/-- One thread moves. -/
def move (s : State P C R S) (i : Nat) (thread : Thread P) : State P C R S :=
  { s with threads := fun j => if j = i then some thread else s.threads j }

/-- A call works on the object and releases the mutex. -/
def finish (obj : Object C R S) (prog : Program A P C R) (s : State P C R S) (i : Nat)
    (stage : P) (call : C) (now : Nat) : State P C R S :=
  let (result, object) := obj.run call now s.object
  { s.move i (.free (prog.resume stage result)) with
    object, holder := none, log := s.log ++ [⟨i, stage, ⟨call, now⟩, result⟩] }

def step (obj : Object C R S) (prog : Program A P C R) (s : State P C R S) :
    Label A → Option (State P C R S)
  | .tick d => some { s with clock := s.clock + d }
  | .start i arg =>
    match s.threads i with
    | none => some (s.move i (.free (prog.start arg)))
    | some _ => none
  | .lock i =>
    match s.threads i, s.holder with
    | some (.free stage), none =>
      (prog.next stage).map fun _ => { s.move i (.locked stage none) with holder := some i }
    | _, _ => none
  | .readClock i =>
    match s.threads i with
    | some (.locked stage none) => some (s.move i (.locked stage (some s.clock)))
    | _ => none
  | .finish i =>
    match s.threads i with
    | some (.locked stage (some now)) =>
      (prog.next stage).map fun call => s.finish obj prog i stage call now
    | _ => none

end State

/-- The threads around the object: at first there are none. -/
def system (obj : Object C R S) (prog : Program A P C R) :
    Lts.System (State P C R S) (Label A) where
  init := fun s => s.object = obj.init ∧ s.holder = none ∧ s.log = [] ∧ ∀ i, s.threads i = none
  step := State.step obj prog

/-! ## What a step does -/

section steps
variable {obj : Object C R S} {prog : Program A P C R} {s s' : State P C R S}

theorem move_threads (s : State P C R S) {i j : Nat} {thread thread' : Thread P}
    (h : (s.move i thread).threads j = some thread') :
    (j = i ∧ thread' = thread) ∨ (j ≠ i ∧ s.threads j = some thread') := by
  change (if j = i then some thread else s.threads j) = some thread' at h
  by_cases hj : j = i
  · rw [if_pos hj, Option.some.injEq] at h
    exact .inl ⟨hj, h.symm⟩
  · rw [if_neg hj] at h
    exact .inr ⟨hj, h⟩

/-- The steps, one rule for each. -/
inductive Step (obj : Object C R S) (prog : Program A P C R) (s : State P C R S) :
    State P C R S → Prop where
  | tick (d : Nat) : Step obj prog s { s with clock := s.clock + d }
  | start {i : Nat} (arg : A) : s.threads i = none →
      Step obj prog s (s.move i (.free (prog.start arg)))
  | lock {i : Nat} {stage : P} {call : C} : s.threads i = some (.free stage) → s.holder = none →
      prog.next stage = some call →
      Step obj prog s { s.move i (.locked stage none) with holder := some i }
  | readClock {i : Nat} {stage : P} : s.threads i = some (.locked stage none) →
      Step obj prog s (s.move i (.locked stage (some s.clock)))
  | finish {i : Nat} {stage : P} {call : C} {now : Nat} :
      s.threads i = some (.locked stage (some now)) → prog.next stage = some call →
      Step obj prog s (s.finish obj prog i stage call now)

theorem step_cases {l : Label A} (h : (system obj prog).step s l = some s') :
    Step obj prog s s' := by
  change s.step obj prog l = some s' at h
  cases l with
  | tick d => exact Option.some.inj h ▸ .tick d
  | start i arg =>
    rw [State.step] at h
    split at h
    · next hthread => exact Option.some.inj h ▸ .start arg hthread
    · cases h
  | lock i =>
    rw [State.step] at h
    split at h
    · next hthread hholder =>
      obtain ⟨call, hcall, rfl⟩ := Option.map_eq_some_iff.mp h
      exact .lock hthread hholder hcall
    · cases h
  | readClock i =>
    rw [State.step] at h
    split at h
    · next hthread => exact Option.some.inj h ▸ .readClock hthread
    · cases h
  | finish i =>
    rw [State.step] at h
    split at h
    · next hthread =>
      obtain ⟨call, hcall, rfl⟩ := Option.map_eq_some_iff.mp h
      exact .finish hthread hcall
    · cases h

/-- The log only grows. -/
theorem log_run {ls : List (Label A)} (h : (system obj prog).run s ls = some s') :
    s.log <+: s'.log := by
  induction ls generalizing s with
  | nil =>
    rw [Lts.System.run_nil, Option.some.injEq] at h
    exact h ▸ List.prefix_refl _
  | cons l ls ih =>
    rw [Lts.System.run_cons, Option.bind_eq_some_iff] at h
    obtain ⟨s₁, hstep, hrun⟩ := h
    refine List.IsPrefix.trans ?_ (ih hrun)
    cases step_cases hstep with
    | finish hthread hcall => exact List.prefix_append _ _
    | _ => exact List.prefix_refl _

end steps

/-! ## The calls take effect one after the other -/

section serial
variable {obj : Object C R S} {prog : Program A P C R} {s s' : State P C R S}

/-- The object, the log and the threads inside the mutex fit together. -/
structure Serial (obj : Object C R S) (s : State P C R S) : Prop where
  object : s.object = obj.after (s.log.map Done.timed)
  ordered : Ordered (s.log.map Done.timed)
  past : ∀ done ∈ s.log, done.timed.now ≤ s.clock
  inside : ∀ i stage now, s.threads i = some (.locked stage now) → s.holder = some i
  /-- No logged call is later than the time that a thread has read inside. -/
  sampled : ∀ i stage now, s.threads i = some (.locked stage (some now)) →
    now ≤ s.clock ∧ ∀ done ∈ s.log, done.timed.now ≤ now
  results : ∀ before done after, s.log = before ++ done :: after →
    done.result =
      (obj.run done.timed.call done.timed.now (obj.after (before.map Done.timed))).1

/-- Nothing changes for the log when a thread moves outside of the mutex. -/
theorem Serial.moveFree (h : Serial obj s) (i : Nat) (stage : P) :
    Serial obj (s.move i (.free stage)) where
  object := h.object
  ordered := h.ordered
  past := h.past
  inside := by
    intro j stage' now hthread
    rcases move_threads s hthread with ⟨-, heq⟩ | ⟨-, hold⟩
    · cases heq
    · exact h.inside j stage' now hold
  sampled := by
    intro j stage' now hthread
    rcases move_threads s hthread with ⟨-, heq⟩ | ⟨-, hold⟩
    · cases heq
    · exact h.sampled j stage' now hold
  results := h.results

theorem Serial.lock (h : Serial obj s) (hholder : s.holder = none) (i : Nat) (stage : P) :
    Serial obj { s.move i (.locked stage none) with holder := some i } := by
  -- the mutex was free, so no thread was inside
  have hfree : ∀ j stage' now, s.threads j ≠ some (.locked stage' now) := by
    intro j stage' now hthread
    have hinside := h.inside j stage' now hthread
    rw [hholder] at hinside
    cases hinside
  refine ⟨h.object, h.ordered, h.past, ?_, ?_, h.results⟩
  · intro j stage' now hthread
    rcases move_threads s hthread with ⟨rfl, -⟩ | ⟨-, hold⟩
    · rfl
    · exact absurd hold (hfree j stage' now)
  · intro j stage' now hthread
    rcases move_threads s hthread with ⟨-, heq⟩ | ⟨-, hold⟩
    · cases heq
    · exact absurd hold (hfree j stage' (some now))

theorem Serial.readClock (h : Serial obj s) {i : Nat} {stage : P}
    (hthread : s.threads i = some (.locked stage none)) :
    Serial obj (s.move i (.locked stage (some s.clock))) := by
  refine ⟨h.object, h.ordered, h.past, ?_, ?_, h.results⟩
  · intro j stage' now hthread'
    rcases move_threads s hthread' with ⟨rfl, -⟩ | ⟨-, hold⟩
    · exact h.inside j stage none hthread
    · exact h.inside j stage' now hold
  · intro j stage' now hthread'
    rcases move_threads s hthread' with ⟨-, heq⟩ | ⟨-, hold⟩
    · obtain ⟨rfl, hnow⟩ := Thread.locked.inj heq
      rw [Option.some.inj hnow]
      exact ⟨Nat.le_refl _, h.past⟩
    · exact h.sampled j stage' now hold

theorem Serial.finish (h : Serial obj s) {i : Nat} {stage : P} {now : Nat}
    (hthread : s.threads i = some (.locked stage (some now))) (call : C) :
    Serial obj (s.finish obj prog i stage call now) := by
  obtain ⟨hnow, hlog⟩ := h.sampled i stage now hthread
  have hholder := h.inside i stage (some now) hthread
  let done : Done P C R := ⟨i, stage, ⟨call, now⟩, (obj.run call now s.object).1⟩
  -- the call is logged where it takes effect
  have hgrown : (s.log ++ [done]).map Done.timed = s.log.map Done.timed ++ [⟨call, now⟩] := by
    rw [List.map_append]
    rfl
  -- a second thread inside would hold the mutex too
  have hfree : ∀ j stage' now',
      (s.move i (.free (prog.resume stage done.result))).threads j ≠
        some (.locked stage' now') := by
    intro j stage' now' hthread'
    rcases move_threads s hthread' with ⟨-, heq⟩ | ⟨hne, hold⟩
    · cases heq
    · have hinside := h.inside j stage' now' hold
      rw [hholder] at hinside
      exact hne (Option.some.inj hinside).symm
  constructor
  · change (obj.run call now s.object).2 = obj.after ((s.log ++ [done]).map Done.timed)
    rw [hgrown, Object.after_concat, ← h.object]
  · change Ordered ((s.log ++ [done]).map Done.timed)
    rw [hgrown]
    apply h.ordered.concat
    intro earlier hearlier
    -- the clock was read inside, so it is past all that is logged
    obtain ⟨done', hdone', rfl⟩ := List.mem_map.mp hearlier
    exact hlog done' hdone'
  · intro done' hdone'
    rcases List.mem_append.mp hdone' with hold | hlast
    · exact h.past done' hold
    · rw [List.mem_singleton.mp hlast]
      exact hnow
  · intro j stage' now' hthread'
    exact absurd hthread' (hfree j stage' now')
  · intro j stage' now' hthread'
    exact absurd hthread' (hfree j stage' (some now'))
  · intro before done' after hsplit
    change s.log ++ [done] = before ++ done' :: after at hsplit
    rcases List.eq_nil_or_concat after with rfl | ⟨after', last, rfl⟩
    · obtain ⟨rfl, hlast⟩ := List.append_inj' hsplit rfl
      obtain ⟨rfl, -⟩ := List.cons.inj hlast
      change (obj.run call now s.object).1 = _
      rw [h.object]
    · rw [List.concat_eq_append, ← List.cons_append, ← List.append_assoc] at hsplit
      obtain ⟨hbefore, -⟩ := List.append_inj' hsplit rfl
      exact h.results before done' after' hbefore

theorem Serial.step (h : Serial obj s) (hs : Step obj prog s s') : Serial obj s' := by
  cases hs with
  | tick d =>
    refine ⟨h.object, h.ordered, ?_, h.inside, ?_, h.results⟩
    · intro done hdone
      exact Nat.le_trans (h.past done hdone) (Nat.le_add_right _ _)
    · intro i stage now hthread
      obtain ⟨hnow, hlog⟩ := h.sampled i stage now hthread
      exact ⟨Nat.le_trans hnow (Nat.le_add_right _ _), hlog⟩
  | start arg hthread => exact h.moveFree _ _
  | lock hthread hholder hcall => exact h.lock hholder _ _
  | readClock hthread => exact h.readClock hthread
  | finish hthread hcall => exact h.finish hthread _

/-- **Whatever the order of steps**, the calls take effect one after the other. -/
theorem serial_of_reachable : ∀ s, (system obj prog).Reachable s → Serial obj s := by
  apply Lts.System.invariant
  · intro s ⟨hobject, hholder, hlog, hthreads⟩
    have hnone : ∀ i thread, s.threads i ≠ some thread := by
      intro i thread hthread
      rw [hthreads i] at hthread
      cases hthread
    refine ⟨?_, ?_, ?_, ?_, ?_, ?_⟩
    · rw [hlog]
      exact hobject
    · rw [hlog]
      exact List.Pairwise.nil
    · rw [hlog]
      intro done hdone
      cases hdone
    · intro i stage now hthread
      exact absurd hthread (hnone i _)
    · intro i stage now hthread
      exact absurd hthread (hnone i _)
    · intro before done after hsplit
      rw [hlog] at hsplit
      exact absurd hsplit.symm (by simp)
  · intro s l s' h hs
    exact h.step (step_cases hs)

end serial

/-! ## The stages of the threads -/

section stages
variable {obj : Object C R S} {prog : Program A P C R} {s s' : State P C R S}

/-- A property holds where a thread starts, and where it goes on. -/
structure Program.Keeps (prog : Program A P C R) (Good : P → Prop) : Prop where
  start : ∀ arg, Good (prog.start arg)
  resume : ∀ stage call result, Good stage → prog.next stage = some call →
    Good (prog.resume stage result)

/-- A thread is at its start, or goes on with the result of a call. -/
structure Staged (prog : Program A P C R) (Good : P → Prop) (s : State P C R S) : Prop where
  good : ∀ i thread, s.threads i = some thread → Good thread.stage
  calls : ∀ done ∈ s.log, Good done.stage ∧ prog.next done.stage = some done.timed.call
  origin : ∀ i thread, s.threads i = some thread →
    (∃ arg, thread.stage = prog.start arg) ∨
      ∃ done ∈ s.log, done.thread = i ∧ thread.stage = prog.resume done.stage done.result

/-- A thread that stays at its stage moves into the mutex, or reads the clock. -/
theorem Staged.moveIn {Good : P → Prop} (h : Staged prog Good s) {i : Nat} {thread : Thread P}
    (hthread : s.threads i = some thread) (thread' : Thread P)
    (hstage : thread'.stage = thread.stage) (holder : Option Nat) :
    Staged prog Good { s.move i thread' with holder } := by
  refine ⟨?_, h.calls, ?_⟩
  · intro j other hother
    rcases move_threads s hother with ⟨rfl, rfl⟩ | ⟨-, hold⟩
    · rw [hstage]
      exact h.good j thread hthread
    · exact h.good j other hold
  · intro j other hother
    rcases move_threads s hother with ⟨rfl, rfl⟩ | ⟨-, hold⟩
    · rw [hstage]
      exact h.origin j thread hthread
    · exact h.origin j other hold

theorem Staged.step {Good : P → Prop} (hkeeps : prog.Keeps Good) (h : Staged prog Good s)
    (hs : Step obj prog s s') : Staged prog Good s' := by
  cases hs with
  | tick d => exact ⟨h.good, h.calls, h.origin⟩
  | @start i arg hthread =>
    refine ⟨?_, h.calls, ?_⟩
    · intro j other hother
      rcases move_threads s hother with ⟨-, rfl⟩ | ⟨-, hold⟩
      · exact hkeeps.start arg
      · exact h.good j other hold
    · intro j other hother
      rcases move_threads s hother with ⟨-, rfl⟩ | ⟨-, hold⟩
      · exact .inl ⟨arg, rfl⟩
      · exact h.origin j other hold
  | @lock i stage call hthread hholder hcall =>
    exact h.moveIn hthread (.locked stage none) rfl (some i)
  | @readClock i stage hthread =>
    exact h.moveIn hthread (.locked stage (some s.clock)) rfl s.holder
  | @finish i stage call now hthread hcall =>
    have hgood : Good stage := h.good i _ hthread
    let done : Done P C R := ⟨i, stage, ⟨call, now⟩, (obj.run call now s.object).1⟩
    refine ⟨?_, ?_, ?_⟩
    · intro j other hother
      rcases move_threads s hother with ⟨-, rfl⟩ | ⟨-, hold⟩
      · exact hkeeps.resume stage call _ hgood hcall
      · exact h.good j other hold
    · intro done' hdone'
      rcases List.mem_append.mp hdone' with hold | hlast
      · exact h.calls done' hold
      · rw [List.mem_singleton.mp hlast]
        exact ⟨hgood, hcall⟩
    · intro j other hother
      -- the stage that comes next is what this call is resumed with
      have hlogged : done ∈ s.log ++ [done] := List.mem_append_right _ List.mem_cons_self
      rcases move_threads s hother with ⟨rfl, rfl⟩ | ⟨-, hold⟩
      · exact .inr ⟨done, hlogged, rfl, rfl⟩
      · rcases h.origin j other hold with hstart | ⟨done', hdone', heq⟩
        · exact .inl hstart
        · exact .inr ⟨done', List.mem_append_left _ hdone', heq⟩

/-- **What the program keeps holds of all threads and of all calls.** -/
theorem staged_of_reachable {Good : P → Prop} (hkeeps : prog.Keeps Good) :
    ∀ s, (system obj prog).Reachable s → Staged prog Good s := by
  apply Lts.System.invariant
  · intro s ⟨_, _, hlog, hthreads⟩
    have hnone : ∀ i thread, s.threads i ≠ some thread := by
      intro i thread hthread
      rw [hthreads i] at hthread
      cases hthread
    refine ⟨?_, ?_, ?_⟩
    · intro i thread hthread
      exact absurd hthread (hnone i thread)
    · rw [hlog]
      intro done hdone
      cases hdone
    · intro i thread hthread
      exact absurd hthread (hnone i thread)
  · intro s l s' h hs
    exact h.step hkeeps (step_cases hs)

end stages

end Mutex
