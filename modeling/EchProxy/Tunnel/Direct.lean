import EchProxy.Base
import EchProxy.Framework.Lts
import Mathlib.Data.List.Infix

/-! # The Direct Relay (`relay_direct` in `client/src/tunnel.rs`)

    The first payload is written to the target, then
    `tokio::io::copy_bidirectional` copies both ways.  Of that no more is taken
    than its documentation says: each direction reads and writes on its own, in
    order, and shuts its writer down at its own end of file; the copying returns
    when both directions are through, or at the first error.  How much a direction
    holds between a read and a write is left open.
-/

namespace EchProxy

/-! ## One direction of `copy_bidirectional` -/

/-- One direction. -/
structure Copy where
  /-- What the reader still delivers before its end of file. -/
  input : Bytes
  /-- History: the bytes read so far. -/
  read : Bytes
  /-- A read returned zero. -/
  eof : Bool
  /-- Bytes read and not written yet. -/
  buf : Bytes
  /-- The bytes written. -/
  written : Bytes
  /-- The writer was shut down: the direction is done. -/
  shut : Bool
  deriving DecidableEq

/-- What can happen in one direction. -/
inductive CopyLabel where
  | read (bytes : Bytes)
  | eof
  | write (n : Nat)
  | shutdown
  deriving DecidableEq

namespace Copy

def fresh (input : Bytes) : Copy where
  input := input
  read := []
  eof := false
  buf := []
  written := []
  shut := false

/-- One step of one direction. -/
def step (c : Copy) : CopyLabel → Option Copy
  | .read bytes =>
    if c.eof = false ∧ bytes ≠ [] ∧ bytes <+: c.input then
      some
        { c with
          input := c.input.drop bytes.length
          read := c.read ++ bytes
          buf := c.buf ++ bytes }
    else none
  | .eof => if c.eof = false ∧ c.input = [] then some { c with eof := true } else none
  | .write n =>
    if 0 < n ∧ n ≤ c.buf.length then
      some { c with buf := c.buf.drop n, written := c.written ++ c.buf.take n }
    else none
  | .shutdown =>
    if c.eof = true ∧ c.buf = [] ∧ c.shut = false then some { c with shut := true } else none

/-- What a step needs, and what it leaves: one rule a branch of `step`. -/
inductive Step (c : Copy) : CopyLabel → Copy → Prop where
  | read {bytes : Bytes} (heof : c.eof = false) (hne : bytes ≠ [])
      (hpre : bytes <+: c.input) :
      Step c (.read bytes)
        { c with
          input := c.input.drop bytes.length
          read := c.read ++ bytes
          buf := c.buf ++ bytes }
  | eof (heof : c.eof = false) (hinput : c.input = []) : Step c .eof { c with eof := true }
  | write {n : Nat} (hpos : 0 < n) (hfits : n ≤ c.buf.length) :
      Step c (.write n) { c with buf := c.buf.drop n, written := c.written ++ c.buf.take n }
  | shutdown (heof : c.eof = true) (hbuf : c.buf = []) (hshut : c.shut = false) :
      Step c .shutdown { c with shut := true }

/-- **`step` follows the rules, and nothing else.** -/
theorem step_iff {c c' : Copy} {l : CopyLabel} : c.step l = some c' ↔ Step c l c' := by
  constructor
  · intro hs
    cases l <;>
      simp only [step, Option.ite_none_right_eq_some, Option.some.injEq] at hs <;>
      obtain ⟨hguard, rfl⟩ := hs
    case read bytes =>
      obtain ⟨heof, hne, hpre⟩ := hguard
      exact .read heof hne hpre
    case eof => exact .eof hguard.1 hguard.2
    case write n => exact .write hguard.1 hguard.2
    case shutdown => exact .shutdown hguard.1 hguard.2.1 hguard.2.2
  · intro hs
    cases hs with
    | read heof hne hpre => exact if_pos ⟨heof, hne, hpre⟩
    | eof heof hinput => exact if_pos ⟨heof, hinput⟩
    | write hpos hfits => exact if_pos ⟨hpos, hfits⟩
    | shutdown heof hbuf hshut => exact if_pos ⟨heof, hbuf, hshut⟩

/-- The invariant of one direction over a reader that delivers `script`. -/
structure Inv (script : Bytes) (c : Copy) : Prop where
  script_split : c.read ++ c.input = script
  held : c.written ++ c.buf = c.read
  eof_input : c.eof = true → c.input = []
  shut_eof : c.shut = true → c.eof = true ∧ c.buf = []

theorem inv_fresh (script : Bytes) : Inv script (fresh script) :=
  ⟨rfl, rfl, fun heof => (by cases heof), fun hshut => (by cases hshut)⟩

theorem Inv.step {script : Bytes} {c c' : Copy} {l : CopyLabel} (h : Inv script c)
    (hs : c.step l = some c') : Inv script c' := by
  cases step_iff.mp hs with
  | @read bytes heof _ hpre =>
    obtain ⟨rest, hrest⟩ := hpre
    refine ⟨?_, ?_, ?_, ?_⟩
    · show c.read ++ bytes ++ c.input.drop bytes.length = script
      rw [← h.script_split, ← hrest]
      simp
    · show c.written ++ (c.buf ++ bytes) = c.read ++ bytes
      rw [← List.append_assoc, h.held]
    · intro heof'
      rw [heof] at heof'
      cases heof'
    · intro hshut
      have hcontra := (h.shut_eof hshut).1
      rw [heof] at hcontra
      cases hcontra
  | eof _ hinput =>
    exact ⟨h.script_split, h.held, fun _ => hinput, fun hshut => ⟨rfl, (h.shut_eof hshut).2⟩⟩
  | @write n hpos hfits =>
    refine ⟨h.script_split, ?_, h.eof_input, ?_⟩
    · show c.written ++ c.buf.take n ++ c.buf.drop n = c.read
      rw [List.append_assoc, List.take_append_drop, h.held]
    · intro hshut
      -- a writer is shut down with its buffer empty, so there is nothing to write
      obtain ⟨-, hbuf⟩ := h.shut_eof hshut
      rw [hbuf, List.length_nil] at hfits
      omega
  | shutdown heof hbuf _ =>
    exact ⟨h.script_split, h.held, h.eof_input, fun _ => ⟨heof, hbuf⟩⟩

/-- A direction that is done has copied everything. -/
theorem Inv.written_all {script : Bytes} {c : Copy} (h : Inv script c) (hshut : c.shut = true) :
    c.written = script := by
  obtain ⟨heof, hbuf⟩ := h.shut_eof hshut
  have hheld := h.held
  have hsplit := h.script_split
  rw [hbuf, List.append_nil] at hheld
  rw [h.eof_input heof, List.append_nil] at hsplit
  rw [hheld, hsplit]

/-- The work left in a direction: each byte is read and written, then the end of
    file is seen and the writer shut down. -/
def weight (c : Copy) : Nat :=
  2 * c.input.length + c.buf.length + (if c.eof then 0 else 1) + if c.shut then 0 else 1

theorem step_weight {c c' : Copy} {l : CopyLabel} (hs : c.step l = some c') :
    c'.weight < c.weight := by
  cases step_iff.mp hs with
  | @read bytes heof hne hpre =>
    obtain ⟨rest, hrest⟩ := hpre
    have hpos : 0 < bytes.length := List.length_pos_iff.mpr hne
    simp only [weight, heof, ← hrest, List.drop_left, List.length_append]
    omega
  | eof heof _ => simp [weight, heof]
  | write hpos hfits =>
    simp only [weight, List.length_drop]
    omega
  | shutdown _ _ hshut => simp [weight, hshut]

/-- As long as it is not done, a direction can take a step. -/
theorem exists_step {c : Copy} (hshut : c.shut = false) : ∃ l c', c.step l = some c' := by
  by_cases hbuf : c.buf = []
  · by_cases heof : c.eof = true
    · exact ⟨.shutdown, _, if_pos ⟨heof, hbuf, hshut⟩⟩
    · have hopen : c.eof = false := by simpa using heof
      cases hinput : c.input with
      | nil => exact ⟨.eof, _, if_pos ⟨hopen, hinput⟩⟩
      | cons b rest =>
        refine ⟨.read [b], _, if_pos ⟨hopen, List.cons_ne_nil _ _, ?_⟩⟩
        rw [hinput]
        exact ⟨rest, rfl⟩
  · have hpos : 0 < c.buf.length := List.length_pos_iff.mpr hbuf
    exact ⟨.write 1, _, if_pos ⟨Nat.one_pos, hpos⟩⟩

end Copy

/-! ## The relay -/

/-- Where `relay_direct` is. -/
inductive DirectPc where
  /-- At `target.write_all(&first_payload).await`, with this much left. -/
  | writingFirst (rest : Bytes)
  /-- At `copy_bidirectional(..).await`. -/
  | copying
  | returned (err : Option String)
  deriving DecidableEq

/-- A direct relay. -/
structure DirectState where
  main : DirectPc
  /-- The part of the first payload that was written. -/
  firstWritten : Bytes
  up : Copy
  down : Copy
  deriving DecidableEq

/-- What can happen to a direct relay. -/
inductive DirectLabel where
  | firstWrite (n : Nat)
  | firstDone
  | up (l : CopyLabel)
  | down (l : CopyLabel)
  /-- Both directions are through. -/
  | done
  /-- A read or a write fails. -/
  | error (err : String)
  deriving DecidableEq

namespace DirectState

def fresh (firstPayload localInput targetInput : Bytes) : DirectState where
  main := .writingFirst firstPayload
  firstWritten := []
  up := .fresh localInput
  down := .fresh targetInput

/-- The bytes written to the target. -/
def targetWritten (s : DirectState) : Bytes := s.firstWritten ++ s.up.written

/-- The bytes written to the local socket. -/
def localWritten (s : DirectState) : Bytes := s.down.written

/-- One step of the direct relay. -/
def step (s : DirectState) : DirectLabel → Option DirectState
  | .firstWrite n =>
    match s.main with
    | .writingFirst rest =>
      if 0 < n ∧ n ≤ rest.length then
        some
          { s with
            main := .writingFirst (rest.drop n)
            firstWritten := s.firstWritten ++ rest.take n }
      else none
    | _ => none
  | .firstDone => if s.main = .writingFirst [] then some { s with main := .copying } else none
  | .up l => if s.main = .copying then (s.up.step l).map fun c => { s with up := c } else none
  | .down l =>
    if s.main = .copying then (s.down.step l).map fun c => { s with down := c } else none
  | .done =>
    if s.main = .copying ∧ s.up.shut = true ∧ s.down.shut = true then
      some { s with main := .returned none }
    else none
  | .error err =>
    match s.main with
    | .returned _ => none
    | _ => some { s with main := .returned (some err) }

/-- What a step needs, and what it leaves: one rule a branch of `step`. -/
inductive Step (s : DirectState) : DirectLabel → DirectState → Prop where
  | firstWrite {rest : Bytes} {n : Nat} (hmain : s.main = .writingFirst rest) (hpos : 0 < n)
      (hfits : n ≤ rest.length) :
      Step s (.firstWrite n)
        { s with
          main := .writingFirst (rest.drop n)
          firstWritten := s.firstWritten ++ rest.take n }
  | firstDone (hmain : s.main = .writingFirst []) :
      Step s .firstDone { s with main := .copying }
  | up {l : CopyLabel} {c : Copy} (hmain : s.main = .copying) (hc : s.up.step l = some c) :
      Step s (.up l) { s with up := c }
  | down {l : CopyLabel} {c : Copy} (hmain : s.main = .copying) (hc : s.down.step l = some c) :
      Step s (.down l) { s with down := c }
  | done (hmain : s.main = .copying) (hup : s.up.shut = true) (hdown : s.down.shut = true) :
      Step s .done { s with main := .returned none }
  | error {err : String} (hmain : ∀ err', s.main ≠ .returned err') :
      Step s (.error err) { s with main := .returned (some err) }

/-- **`step` follows the rules, and nothing else.** -/
theorem step_iff {s s' : DirectState} {l : DirectLabel} : s.step l = some s' ↔ Step s l s' := by
  constructor
  · intro hs
    cases l with
    | firstWrite n =>
      simp only [step] at hs
      split at hs
      · next rest hmain =>
        simp only [Option.ite_none_right_eq_some, Option.some.injEq] at hs
        obtain ⟨⟨hpos, hfits⟩, rfl⟩ := hs
        exact .firstWrite hmain hpos hfits
      · cases hs
    | firstDone =>
      simp only [step, Option.ite_none_right_eq_some, Option.some.injEq] at hs
      obtain ⟨hmain, rfl⟩ := hs
      exact .firstDone hmain
    | up l =>
      simp only [step, Option.ite_none_right_eq_some, Option.map_eq_some_iff] at hs
      obtain ⟨hmain, c, hc, rfl⟩ := hs
      exact .up hmain hc
    | down l =>
      simp only [step, Option.ite_none_right_eq_some, Option.map_eq_some_iff] at hs
      obtain ⟨hmain, c, hc, rfl⟩ := hs
      exact .down hmain hc
    | done =>
      simp only [step, Option.ite_none_right_eq_some, Option.some.injEq] at hs
      obtain ⟨⟨hmain, hup, hdown⟩, rfl⟩ := hs
      exact .done hmain hup hdown
    | error err =>
      simp only [step] at hs
      split at hs
      · cases hs
      · next hmain => exact Option.some.inj hs ▸ .error hmain
  · intro h
    cases h with
    | firstWrite hmain hpos hfits => simp [step, hmain, hpos, hfits]
    | firstDone hmain => simp [step, hmain]
    | up hmain hc | down hmain hc => simp [step, hmain, hc]
    | done hmain hup hdown => simp [step, hmain, hup, hdown]
    | error _ => simp [step]

/-- The direct relay of a connection. -/
def system (firstPayload localInput targetInput : Bytes) :
    Lts.System DirectState DirectLabel where
  init := fun s => s = fresh firstPayload localInput targetInput
  step := step

/-- No I/O error. -/
def Calm (_ : DirectState) : DirectLabel → Prop
  | .error _ => False
  | _ => True

instance (s : DirectState) (l : DirectLabel) : Decidable (Calm s l) := by
  cases l <;> first | exact .isTrue trivial | exact .isFalse id

/-- The runs without an I/O error. -/
abbrev calm (firstPayload localInput targetInput : Bytes) : Lts.System DirectState DirectLabel :=
  (system firstPayload localInput targetInput).restrict Calm

/-- The invariant of the direct relay. -/
structure Inv (firstPayload localInput targetInput : Bytes) (s : DirectState) : Prop where
  up : s.up.Inv localInput
  down : s.down.Inv targetInput
  first_split : ∀ rest, s.main = .writingFirst rest → s.firstWritten ++ rest = firstPayload
  first_done : s.main = .copying ∨ s.main = .returned none → s.firstWritten = firstPayload
  first_prefix : s.firstWritten <+: firstPayload
  returned : s.main = .returned none → s.up.shut = true ∧ s.down.shut = true
  not_copying : ∀ rest, s.main = .writingFirst rest → s.up.written = []

section invariant
variable {firstPayload localInput targetInput : Bytes} {s s' : DirectState}

theorem inv_fresh (firstPayload localInput targetInput : Bytes) :
    Inv firstPayload localInput targetInput (fresh firstPayload localInput targetInput) where
  up := Copy.inv_fresh _
  down := Copy.inv_fresh _
  first_split := fun rest h => by
    obtain rfl := DirectPc.writingFirst.inj h
    rfl
  first_done := fun h => by rcases h with h | h <;> cases h
  first_prefix := List.nil_prefix
  returned := fun h => by cases h
  not_copying := fun _ _ => rfl

theorem Inv.step {l : DirectLabel} (h : Inv firstPayload localInput targetInput s)
    (hs : s.step l = some s') : Inv firstPayload localInput targetInput s' := by
  cases step_iff.mp hs with
  | @firstWrite rest n hmain _ _ =>
    -- what is written moves from what is left to what was written
    have hsplit : s.firstWritten ++ rest.take n ++ rest.drop n = firstPayload := by
      rw [List.append_assoc, List.take_append_drop, h.first_split rest hmain]
    exact
      { up := h.up
        down := h.down
        first_split := fun rest' h' => by
          obtain rfl := DirectPc.writingFirst.inj h'
          exact hsplit
        first_done := fun h' => by rcases h' with h' | h' <;> cases h'
        first_prefix := ⟨_, hsplit⟩
        returned := fun h' => by cases h'
        not_copying := fun _ _ => h.not_copying rest hmain }
  | firstDone hmain =>
    have hfirst := h.first_split [] hmain
    rw [List.append_nil] at hfirst
    exact
      { up := h.up
        down := h.down
        first_split := fun rest h' => by cases h'
        first_done := fun _ => hfirst
        first_prefix := h.first_prefix
        returned := fun h' => by cases h'
        not_copying := fun _ h' => by cases h' }
  | up hmain hc =>
    exact
      { up := h.up.step hc
        down := h.down
        first_split := h.first_split
        first_done := h.first_done
        first_prefix := h.first_prefix
        returned := fun h' => by
          rw [hmain] at h'
          cases h'
        not_copying := fun _ h' => by
          rw [hmain] at h'
          cases h' }
  | down hmain hc =>
    exact
      { up := h.up
        down := h.down.step hc
        first_split := h.first_split
        first_done := h.first_done
        first_prefix := h.first_prefix
        returned := fun h' => by
          rw [hmain] at h'
          cases h'
        not_copying := h.not_copying }
  | done hmain hup hdown =>
    exact
      { up := h.up
        down := h.down
        first_split := fun rest h' => by cases h'
        first_done := fun _ => h.first_done (.inl hmain)
        first_prefix := h.first_prefix
        returned := fun _ => ⟨hup, hdown⟩
        not_copying := fun _ h' => by cases h' }
  | error _ =>
    -- an error may come after any part of the first payload
    exact
      { up := h.up
        down := h.down
        first_split := fun rest h' => by cases h'
        first_done := fun h' => by rcases h' with h' | h' <;> cases h'
        first_prefix := h.first_prefix
        returned := fun h' => by cases h'
        not_copying := fun _ h' => by cases h' }

theorem inv_of_reachable (hr : (system firstPayload localInput targetInput).Reachable s) :
    Inv firstPayload localInput targetInput s := by
  refine Lts.System.invariant _ (Inv firstPayload localInput targetInput) ?_ ?_ s hr
  · rintro s rfl
    exact inv_fresh _ _ _
  · intro s l s' h hs
    exact h.step hs

/-- Nothing is copied before the first payload is written. -/
theorem copied_after_first (hr : (system firstPayload localInput targetInput).Reachable s) :
    s.up = .fresh localInput ∨ s.firstWritten = firstPayload := by
  refine Lts.System.invariant_of_reachable _
    (fun s => s.up = .fresh localInput ∨ s.firstWritten = firstPayload) ?_ ?_ s hr
  · rintro s rfl
    exact .inl rfl
  · intro s l s' hr ih hs
    have hinv := inv_of_reachable hr
    cases step_iff.mp hs with
    | @firstWrite rest n hmain hpos hfits =>
      refine .inl (ih.resolve_right fun hfirst => ?_)
      -- there would be nothing left to write
      have hsplit := hinv.first_split rest hmain
      rw [hfirst, List.append_right_eq_self] at hsplit
      rw [hsplit, List.length_nil] at hfits
      omega
    | up hmain _ =>
      -- the copying begins behind the whole first payload
      exact .inr (hinv.first_done (.inl hmain))
    | firstDone _ | down _ _ | done _ _ _ | error _ => exact ih

/-- A direction to the target that is shut down has copied everything. -/
theorem up_complete (hr : (system firstPayload localInput targetInput).Reachable s)
    (hshut : s.up.shut = true) : s.targetWritten = firstPayload ++ localInput := by
  have hfirst : s.firstWritten = firstPayload := by
    refine (copied_after_first hr).resolve_left fun hfresh => ?_
    rw [hfresh] at hshut
    cases hshut
  rw [targetWritten, hfirst, (inv_of_reachable hr).up.written_all hshut]

/-- The target gets the first payload and then what the client sends, in order. -/
theorem written_in_order (hr : (system firstPayload localInput targetInput).Reachable s) :
    s.targetWritten <+: firstPayload ++ localInput := by
  have hinv := inv_of_reachable hr
  rw [targetWritten]
  rcases copied_after_first hr with hfresh | hfirst
  · rw [hfresh, show (Copy.fresh localInput).written = [] from rfl, List.append_nil]
    exact hinv.first_prefix.trans (List.prefix_append _ _)
  · rw [hfirst, List.prefix_append_right_inj]
    refine (List.prefix_append _ s.up.buf).trans ?_
    rw [hinv.up.held]
    exact ⟨_, hinv.up.script_split⟩

/-! ## What a complete run delivers -/

/-- Without errors the relay does not return one. -/
theorem calm_main (hr : (calm firstPayload localInput targetInput).Reachable s) :
    ∀ err, s.main ≠ .returned (some err) := by
  refine Lts.System.invariant _ (fun s => ∀ err, s.main ≠ .returned (some err)) ?_ ?_ s hr
  · rintro s rfl err h
    cases h
  · intro s l s' ih hs err h
    obtain ⟨hcalm, hs⟩ := Lts.System.restrict_step_iff.mp hs
    cases step_iff.mp hs with
    | error _ => exact hcalm
    | firstWrite _ _ _ | firstDone _ | done _ _ _ => cases h
    | up _ _ | down _ _ => exact ih err h

/-- A state of the direct relay in which something is left to do can take a
    step. -/
theorem exists_step (hret : ∀ err, s.main ≠ .returned err) :
    ∃ l s', Calm s l ∧ s.step l = some s' := by
  cases hmain : s.main with
  | returned err => exact absurd hmain (hret err)
  | writingFirst rest =>
    cases rest with
    | nil => exact ⟨.firstDone, _, trivial, if_pos hmain⟩
    | cons b rest =>
      have hfits : 1 ≤ (b :: rest).length := Nat.succ_pos _
      exact ⟨.firstWrite 1, _, trivial, step_iff.mpr (.firstWrite hmain Nat.one_pos hfits)⟩
  | copying =>
    by_cases hup : s.up.shut = true
    · by_cases hdown : s.down.shut = true
      · exact ⟨.done, _, trivial, if_pos ⟨hmain, hup, hdown⟩⟩
      · obtain ⟨l, c, hc⟩ := Copy.exists_step (by simpa using hdown)
        exact ⟨.down l, _, trivial, step_iff.mpr (.down hmain hc)⟩
    · obtain ⟨l, c, hc⟩ := Copy.exists_step (by simpa using hup)
      exact ⟨.up l, _, trivial, step_iff.mpr (.up hmain hc)⟩

/-- **A complete run of the direct relay delivers everything, both ways.** -/
theorem calm_complete (hr : (calm firstPayload localInput targetInput).Reachable s)
    (hq : (calm firstPayload localInput targetInput).Quiescent s) :
    s.main = .returned none ∧ s.targetWritten = firstPayload ++ localInput ∧
      s.localWritten = targetInput := by
  have hinv := inv_of_reachable hr.of_restrict
  have hmain : s.main = .returned none := by
    by_contra hnot
    have hret : ∀ err, s.main ≠ .returned err := by
      intro err h
      cases err with
      | none => exact hnot h
      | some err => exact calm_main hr err h
    obtain ⟨l, s', hcalm, hs⟩ := exists_step hret
    have hstuck := Lts.System.restrict_step_none (hq l) hcalm
    exact absurd (hstuck.symm.trans hs) (by simp)
  obtain ⟨hup, hdown⟩ := hinv.returned hmain
  refine ⟨hmain, ?_, hinv.down.written_all hdown⟩
  rw [targetWritten, hinv.first_done (.inr hmain), hinv.up.written_all hup]

/-! ## Complete runs exist -/

/-- The work left in a direct relay. -/
def weight (s : DirectState) : Nat :=
  s.up.weight + s.down.weight +
    match s.main with
    | .writingFirst rest => rest.length + 3
    | .copying => 2
    | .returned _ => 0

theorem step_weight {l : DirectLabel} (hs : s.step l = some s') : s'.weight < s.weight := by
  cases step_iff.mp hs with
  | firstWrite hmain hpos hfits =>
    simp only [weight, hmain, List.length_drop]
    omega
  | firstDone hmain | done hmain _ _ => simp [weight, hmain]
  | up _ hc | down _ hc =>
    have hlower := Copy.step_weight hc
    simp only [weight]
    omega
  | error hmain =>
    cases hpc : s.main with
    | returned err => exact absurd hpc (hmain err)
    | writingFirst _ | copying =>
      simp only [weight, hpc]
      omega

/-- No run of the direct relay goes on forever. -/
theorem terminates (firstPayload localInput targetInput : Bytes) :
    (system firstPayload localInput targetInput).Terminates :=
  Lts.System.terminates_of_measure Nat.lt_wfRel.wf weight fun _ _ _ _ hs => step_weight hs

/-- There is a complete run without errors. -/
theorem exists_complete (firstPayload localInput targetInput : Bytes) :
    ∃ s, (calm firstPayload localInput targetInput).Reachable s ∧
      (calm firstPayload localInput targetInput).Quiescent s := by
  have hterm := (terminates firstPayload localInput targetInput).restrict Calm
  obtain ⟨ls, s, hrun, hq⟩ := hterm.exists_quiescent (.init rfl)
  exact ⟨s, Lts.System.reachable_of_run (.init rfl) hrun, hq⟩

end invariant

end DirectState

end EchProxy
