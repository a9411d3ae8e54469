import EchProxy.Framework.Mutex
import Mathlib.Data.List.Induction

/-! # A Map that Keeps the First Value

    Tasks look a key up in a map behind a mutex.  A task that finds nothing
    builds a value outside of the mutex and offers it: the map keeps the first
    value that is offered under a key, and answers each offer with what it
    keeps.  A task whose build fails offers nothing.

    Several tasks may build for one key at the same time.  All the same, each
    of them goes on with the one value that was offered first, and nothing is
    built once that value is there.
-/

namespace OnceMap

open Mutex

variable {A K V E : Type}

/-! ## The map -/

section map
variable [DecidableEq K]

inductive Call (K V : Type) where
  | get (key : K)
  /-- `entry(key).or_insert(value)`. -/
  | offer (key : K) (value : V)
  deriving DecidableEq

/-- The key that a call is about. -/
def Call.key : Call K V → K
  | .get key => key
  | .offer key _ => key

/-- A call: what it answers, and the map after it. -/
def Call.run (call : Call K V) (map : K → Option V) : Option V × (K → Option V) :=
  match call with
  | .get key => (map key, map)
  | .offer key value =>
    match map key with
    | some kept => (some kept, map)
    | none => (some value, fun other => if other = key then some value else map other)

/-- At first the map is empty. -/
def object (K V : Type) [DecidableEq K] : Object (Call K V) (Option V) (K → Option V) where
  init := fun _ => none
  run := fun call _ map => call.run map

/-- The value that a call offers under the key. -/
def offered? (key : K) (timed : Timed (Call K V)) : Option V :=
  match timed.call with
  | .get _ => none
  | .offer other value => if other = key then some value else none

/-- The value that is offered first under the key. -/
def first (key : K) (calls : List (Timed (Call K V))) : Option V := calls.findSome? (offered? key)

theorem offered?_eq_some {key : K} {timed : Timed (Call K V)} {value : V} :
    offered? key timed = some value ↔ timed.call = .offer key value := by
  unfold offered?
  split
  · next other hcall => simp [hcall]
  · next other value' hcall =>
    by_cases hkey : other = key
    · simp [hcall, hkey]
    · simp [hcall, hkey]

theorem first_append (key : K) (calls later : List (Timed (Call K V))) :
    first key (calls ++ later) = (first key calls).or (first key later) := by
  rw [first, List.findSome?_append]
  rfl

/-- What is offered first stays first. -/
theorem first_mono {key : K} {calls : List (Timed (Call K V))} {value : V}
    (h : first key calls = some value) (later : List (Timed (Call K V))) :
    first key (calls ++ later) = some value := by
  rw [first_append, h]
  rfl

/-- **The map holds what was offered first** under each key. -/
theorem object_after (calls : List (Timed (Call K V))) (key : K) :
    (object K V).after calls key = first key calls := by
  induction calls using List.reverseRecOn with
  | nil => rfl
  | append_singleton calls timed ih =>
    have hone : first key [timed] = offered? key timed := by
      rw [first, List.findSome?_cons, List.findSome?_nil]
      cases offered? key timed <;> rfl
    obtain ⟨call, now⟩ := timed
    rw [Object.after_concat, first_append, hone]
    change (call.run _).2 key = _
    cases call with
    | get other =>
      rw [show offered? key (⟨.get other, now⟩ : Timed (Call K V)) = none from rfl, Option.or_none]
      exact ih
    | offer other value =>
      rw [Call.run]
      by_cases hkey : key = other
      · subst hkey
        rw [ih, show offered? key (⟨.offer key value, now⟩ : Timed (Call K V)) = some value from
          if_pos rfl]
        cases hfirst : first key calls with
        | some kept => exact ih.trans hfirst
        | none => exact if_pos rfl
      · rw [show offered? key (⟨.offer other value, now⟩ : Timed (Call K V)) = none from
          if_neg (Ne.symm hkey), Option.or_none]
        split
        · exact ih
        · exact (if_neg hkey).trans ih

/-- A lookup is answered with what was offered first before it. -/
theorem run_get (calls : List (Timed (Call K V))) (key : K) (now : Nat) :
    ((object K V).run (.get key) now ((object K V).after calls)).1 = first key calls :=
  object_after calls key

/-- An offer is answered with what was offered first, up to this offer. -/
theorem run_offer (calls : List (Timed (Call K V))) (key : K) (value : V) (now : Nat) :
    ((object K V).run (.offer key value) now ((object K V).after calls)).1 =
      some ((first key calls).getD value) := by
  change (Call.run _ _).1 = _
  rw [Call.run, ← object_after]
  split
  · next kept hkept => rw [hkept, Option.getD_some]
  · next hnone => rw [hnone, Option.getD_none]

end map

/-! ## The tasks -/

/-- How far a task is. -/
inductive Stage (A V E : Type) where
  | lookup (task : A)
  | offer (task : A) (value : V)
  | returned (task : A) (result : Except E V)

/-- The tasks, by the key of each and what its build comes to. -/
def program (key : A → K) (build : A → Except E V) :
    Program A (Stage A V E) (Call K V) (Option V) where
  start task := .lookup task
  next
    | .lookup task => some (.get (key task))
    | .offer task value => some (.offer (key task) value)
    | .returned _ _ => none
  resume
    | .lookup task, some value => .returned task (.ok value)
    | .lookup task, none =>
      match build task with
      | .ok value => .offer task value
      | .error err => .returned task (.error err)
    | .offer task value, answer => .returned task (.ok (answer.getD value))
    | .returned task result, _ => .returned task result

/-- A task offers what it has built, and fails as its build does. -/
def Stage.Honest (build : A → Except E V) : Stage A V E → Prop
  | .lookup _ => True
  | .offer task value => build task = .ok value
  | .returned _ (.ok _) => True
  | .returned task (.error err) => build task = .error err

theorem program_keeps (key : A → K) (build : A → Except E V) :
    (program key build).Keeps (Stage.Honest build) where
  start := fun _ => trivial
  resume := by
    intro stage call result hhonest hnext
    cases stage with
    | lookup task =>
      cases result with
      | some value => trivial
      | none =>
        rw [program]
        dsimp only
        split
        · next hbuild => exact hbuild
        · next hbuild => exact hbuild
    | offer task value => trivial
    | returned task outcome => cases hnext

/-! ## All runs -/

section runs
variable [DecidableEq K] {key : A → K} {build : A → Except E V}
  {s : State (Stage A V E) (Call K V) (Option V) (K → Option V)}

/-- What a call was answered, by the calls before it. -/
theorem answer (hs : (system (object K V) (program key build)).Reachable s)
    {before after : List (Done (Stage A V E) (Call K V) (Option V))}
    {done : Done (Stage A V E) (Call K V) (Option V)} (hsplit : s.log = before ++ done :: after) :
    (∀ k, done.timed.call = .get k → done.result = first k (before.map Done.timed)) ∧
      ∀ k value, done.timed.call = .offer k value →
        done.result = some ((first k (before.map Done.timed)).getD value) := by
  have hresult := (serial_of_reachable s hs).results before done after hsplit
  constructor
  · intro k hcall
    rw [hresult, hcall, run_get]
  · intro k value hcall
    rw [hresult, hcall, run_offer]

/-- **Every value that a task returns is the one that was offered first** under
    its key, and the map holds it. -/
theorem returned_first (hs : (system (object K V) (program key build)).Reachable s) {i : Nat}
    {task : A} {value : V} (hthread : s.threads i = some (.free (.returned task (.ok value)))) :
    first (key task) (s.log.map Done.timed) = some value ∧ s.object (key task) = some value := by
  have hstaged := staged_of_reachable (program_keeps key build) s hs
  have hobject : s.object (key task) = first (key task) (s.log.map Done.timed) := by
    rw [(serial_of_reachable s hs).object, object_after]
  rw [hobject, and_self]
  rcases hstaged.origin i _ hthread with ⟨arg, hstart⟩ | ⟨done, hdone, -, hresume⟩
  · cases hstart
  · obtain ⟨hhonest, hnext⟩ := hstaged.calls done hdone
    obtain ⟨before, after, hsplit⟩ := List.append_of_mem hdone
    obtain ⟨hget, hoffer⟩ := answer hs hsplit
    -- the log goes on behind the call that the task returned from
    have hlog : s.log.map Done.timed =
        (before.map Done.timed ++ [done.timed]) ++ after.map Done.timed := by
      rw [hsplit, List.map_append, List.map_cons, List.append_assoc, List.singleton_append]
    rw [hlog]
    apply first_mono
    obtain ⟨thread, stage, timed, result⟩ := done
    cases stage with
    | lookup task' =>
      have hcall : timed.call = .get (key task') := (Option.some.inj hnext).symm
      have hfound := hget _ hcall
      cases result with
      | some found =>
        obtain ⟨rfl, hvalue⟩ := Stage.returned.inj hresume
        obtain rfl := Except.ok.inj hvalue
        exact first_mono hfound.symm _
      | none =>
        -- after a miss the task builds first
        change _ = (match build task' with
          | .ok value => Stage.offer task' value
          | .error err => .returned task' (.error err)) at hresume
        split at hresume <;> cases hresume
    | offer task' offered =>
      have hcall : timed.call = .offer (key task') offered := (Option.some.inj hnext).symm
      obtain rfl : result = _ := hoffer _ _ hcall
      obtain ⟨rfl, hvalue⟩ := Stage.returned.inj hresume
      obtain rfl := Except.ok.inj hvalue
      have hone : first (key task) [timed] = some offered := by
        rw [first, List.findSome?_cons, offered?_eq_some.mpr hcall]
      rw [first_append, hone]
      cases first (key task) (before.map Done.timed) <;> rfl
    | returned task' outcome => cases hnext

/-- What was offered first under a key was built by a task for this key. -/
theorem first_built (hs : (system (object K V) (program key build)).Reachable s) {k : K} {value : V}
    (h : first k (s.log.map Done.timed) = some value) :
    ∃ task, key task = k ∧ build task = .ok value := by
  obtain ⟨timed, hmem, hoffered⟩ := List.exists_of_findSome?_eq_some h
  obtain ⟨done, hdone, rfl⟩ := List.mem_map.mp hmem
  have hcall := offered?_eq_some.mp hoffered
  obtain ⟨hhonest, hnext⟩ := (staged_of_reachable (program_keeps key build) s hs).calls done hdone
  rw [hcall] at hnext
  cases hstage : done.stage with
  | lookup task =>
    rw [hstage] at hnext
    cases hnext
  | offer task value' =>
    rw [hstage] at hnext hhonest
    cases hnext
    exact ⟨task, rfl, hhonest⟩
  | returned task outcome =>
    rw [hstage] at hnext
    cases hnext

/-- A task fails as its own build does. -/
theorem failed_build (hs : (system (object K V) (program key build)).Reachable s) {i : Nat}
    {task : A} {err : E} (hthread : s.threads i = some (.free (.returned task (.error err)))) :
    build task = .error err :=
  (staged_of_reachable (program_keeps key build) s hs).good i _ hthread

/-- **A value settles its key**: what a task has returned answers every later
    call for the key. -/
theorem settled (hs : (system (object K V) (program key build)).Reachable s) {i : Nat} {task : A}
    {value : V} (hthread : s.threads i = some (.free (.returned task (.ok value))))
    {ls : List (Label A)} {s' : State (Stage A V E) (Call K V) (Option V) (K → Option V)}
    (hrun : (system (object K V) (program key build)).run s ls = some s') :
    ∃ later, s'.log = s.log ++ later ∧
      ∀ done ∈ later, done.timed.call.key = key task → done.result = some value := by
  obtain ⟨later, hlater⟩ := log_run hrun
  refine ⟨later, hlater.symm, ?_⟩
  intro done hdone hkey
  obtain ⟨before, after, rfl⟩ := List.append_of_mem hdone
  -- the value was offered in front of this call
  have hfirst : first (key task) ((s.log ++ before).map Done.timed) = some value := by
    rw [List.map_append]
    exact first_mono (returned_first hs hthread).1 _
  have hsplit : s'.log = (s.log ++ before) ++ done :: after := by
    rw [← hlater, List.append_assoc]
  obtain ⟨hget, hoffer⟩ := answer (Lts.System.reachable_of_run hs hrun) hsplit
  cases hcall : done.timed.call with
  | get k =>
    rw [hcall] at hkey
    obtain rfl : k = key task := hkey
    rw [hget _ hcall, hfirst]
  | offer k offered =>
    rw [hcall] at hkey
    obtain rfl : k = key task := hkey
    rw [hoffer _ _ hcall, hfirst]
    rfl

end runs

end OnceMap
