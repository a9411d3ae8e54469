import EchProxy.Framework.Result
import Mathlib.Algebra.Group.Nat.Defs
import Mathlib.Tactic.Common

/-! # Checked Machine Code

    The operations on slices and machine words that can fail: raw indexing and
    slicing, unchecked addition and subtraction, and their checked variants.
    A computation returns a value, an error of its own, or a fault of the
    language: a panic, or a loop that does not end.

    `Safe x P` is the partial-correctness judgement over such computations:
    `x` has no fault, and what it returns, if it returns, meets `P`.  The rules
    below let a proof follow the code line by line.
-/

namespace Checked

open Result

/-! ## Platforms and slices -/

/-- The pointer width of a platform. -/
inductive Width where
  | bits32
  | bits64
  deriving DecidableEq

/-- The largest `usize`. -/
def Width.usizeMax : Width → Nat
  | .bits32 => 2 ^ 32 - 1
  | .bits64 => 2 ^ 64 - 1

/-- The largest `isize`, which bounds the length of every slice of bytes. -/
def Width.isizeMax : Width → Nat
  | .bits32 => 2 ^ 31 - 1
  | .bits64 => 2 ^ 63 - 1

/-- Above every slice there is room for a 16-bit length. -/
theorem Width.room (w : Width) : w.isizeMax + 65536 ≤ w.usizeMax := by
  cases w <;> decide

/-- A slice of bytes on a platform. -/
structure Slice (w : Width) where
  data : List UInt8
  fits : data.length ≤ w.isizeMax

/-! ## Computations -/

/-- What the language does instead of going on. -/
inductive Panic where
  | indexOutOfBounds
  | sliceOutOfBounds
  | overflow
  deriving DecidableEq

/-- Why a computation returns no value. -/
inductive Fault where
  /-- An error the code reports. -/
  | error (msg : String)
  | panic (why : Panic)
  /-- A loop ran longer than it was given fuel for. -/
  | diverged
  deriving DecidableEq

/-- A computation. -/
abbrev Eval (α : Type) := Except Fault α

/-- `bail!`. -/
def bail {α : Type} (msg : String) : Eval α :=
  .error (.error msg)

/-- `.context(..)?` on an option. -/
def context {α : Type} (msg : String) : Option α → Eval α
  | some a => .ok a
  | none => bail msg

theorem context_eq_ok {α : Type} {msg : String} {o : Option α} {a : α} :
    context msg o = .ok a ↔ o = some a := by
  cases o with
  | none => exact ⟨fun h => (by cases h), fun h => (by cases h)⟩
  | some b => simp [context]

/-- `.context(..)` on a result: an error gets a new message, a panic goes on. -/
def withContext {α : Type} (msg : String) : Eval α → Eval α
  | .ok a => .ok a
  | .error (.error _) => bail msg
  | .error fault => .error fault

theorem withContext_eq_ok {α : Type} {msg : String} {x : Eval α} {a : α} :
    withContext msg x = .ok a ↔ x = .ok a := by
  unfold withContext
  split
  · exact Iff.rfl
  · exact ⟨fun h => (by cases h), fun h => (by cases h)⟩
  · exact Iff.rfl

section operations
variable {α : Type}

/-- `usize::checked_add`. -/
def checkedAdd (w : Width) (a b : Nat) : Option Nat :=
  if a + b ≤ w.usizeMax then some (a + b) else none

/-- `a + b` on `usize`. -/
def add (w : Width) (a b : Nat) : Eval Nat :=
  if a + b ≤ w.usizeMax then .ok (a + b) else .error (.panic .overflow)

/-- `a - b` on `usize`. -/
def sub (a b : Nat) : Eval Nat :=
  if b ≤ a then .ok (a - b) else .error (.panic .overflow)

/-- `s[i]`. -/
def index (s : List α) (i : Nat) : Eval α :=
  match s[i]? with
  | some a => .ok a
  | none => .error (.panic .indexOutOfBounds)

/-- `s.get(a..b)`. -/
def getRange (s : List α) (a b : Nat) : Option (List α) :=
  if a ≤ b ∧ b ≤ s.length then some ((s.drop a).take (b - a)) else none

/-- `&s[a..b]`. -/
def slice (s : List α) (a b : Nat) : Eval (List α) :=
  match getRange s a b with
  | some part => .ok part
  | none => .error (.panic .sliceOutOfBounds)

theorem checkedAdd_eq {w : Width} {a b : Nat} (h : a + b ≤ w.usizeMax) :
    checkedAdd w a b = some (a + b) :=
  if_pos h

theorem add_eq {w : Width} {a b : Nat} (h : a + b ≤ w.usizeMax) : add w a b = .ok (a + b) :=
  if_pos h

theorem sub_eq {a b : Nat} (h : b ≤ a) : sub a b = .ok (a - b) :=
  if_pos h

theorem index_eq {s : List α} {i : Nat} {a : α} (h : s[i]? = some a) : index s i = .ok a := by
  rw [index, h]

theorem getRange_eq {s : List α} {a b : Nat} (hle : a ≤ b) (hlen : b ≤ s.length) :
    getRange s a b = some ((s.drop a).take (b - a)) :=
  if_pos ⟨hle, hlen⟩

theorem getRange_spec {s part : List α} {a b : Nat} (h : getRange s a b = some part) :
    a ≤ b ∧ b ≤ s.length ∧ part = (s.drop a).take (b - a) := by
  simp only [getRange, Option.ite_none_right_eq_some, Option.some.injEq] at h
  exact ⟨h.1.1, h.1.2, h.2.symm⟩

theorem length_of_getRange {s part : List α} {a b : Nat} (h : getRange s a b = some part) :
    part.length = b - a := by
  obtain ⟨hle, hlen, rfl⟩ := getRange_spec h
  rw [List.length_take, List.length_drop]
  omega

theorem getElem?_of_getRange {s part : List α} {a b i : Nat} (h : getRange s a b = some part)
    (hi : a + i < b) : part[i]? = s[a + i]? := by
  obtain ⟨-, -, rfl⟩ := getRange_spec h
  rw [List.getElem?_take_of_lt (by omega), List.getElem?_drop]

end operations

/-! ## The judgement -/

/-- `x` has no fault, and what it returns meets `P`. -/
def Safe {α : Type} (x : Eval α) (P : α → Prop) : Prop :=
  (∀ fault, x = .error fault → ∃ msg, fault = .error msg) ∧ ∀ a, x = .ok a → P a

namespace Safe

variable {α β : Type} {x : Eval α} {P Q : α → Prop}

theorem ok {a : α} (h : P a) : Safe (.ok a) P :=
  ⟨fun _ hf => by (cases hf), fun b hb => by (cases hb; exact h)⟩

theorem bail (msg : String) : Safe (bail msg) P :=
  ⟨fun fault hf => ⟨msg, by cases hf; rfl⟩, fun _ hb => by (cases hb)⟩

theorem mono (h : Safe x P) (himp : ∀ a, P a → Q a) : Safe x Q :=
  ⟨h.1, fun a ha => himp a (h.2 a ha)⟩

/-- **Sequencing**: the rest is safe on what the first part may return. -/
theorem bind {f : α → Eval β} {R : β → Prop} (hx : Safe x P) (hf : ∀ a, P a → Safe (f a) R) :
    Safe (x >>= f) R := by
  obtain ⟨herr, hok⟩ := hx
  cases x with
  | error fault =>
    obtain ⟨msg, rfl⟩ := herr fault rfl
    exact bail msg
  | ok a => exact hf a (hok a rfl)

theorem context {o : Option α} (msg : String) (h : ∀ a, o = some a → P a) :
    Safe (context msg o) P := by
  cases o with
  | none => exact bail msg
  | some a => exact ok (h a rfl)

theorem withContext (msg : String) (h : Safe x P) : Safe (withContext msg x) P := by
  obtain ⟨herr, hok⟩ := h
  cases x with
  | error fault =>
    obtain ⟨_, rfl⟩ := herr fault rfl
    exact bail msg
  | ok a => exact ok (hok a rfl)

/-- A test that ends in an error: the rest may use that it did not. -/
theorem guard {c : Prop} [Decidable c] {msg : String} (h : ¬ c → Safe x P) :
    Safe (if c then Checked.bail msg else x) P := by
  by_cases hc : c
  · rw [if_pos hc]
    exact bail msg
  · rw [if_neg hc]
    exact h hc

theorem add {w : Width} {a b : Nat} {P : Nat → Prop} (hfits : a + b ≤ w.usizeMax)
    (h : P (a + b)) : Safe (add w a b) P := by
  rw [Checked.add, if_pos hfits]
  exact ok h

theorem sub {a b : Nat} {P : Nat → Prop} (hle : b ≤ a) (h : P (a - b)) : Safe (sub a b) P := by
  rw [Checked.sub, if_pos hle]
  exact ok h

theorem checkedAdd {w : Width} {a b : Nat} {P : Nat → Prop} (msg : String) (h : P (a + b)) :
    Safe (Checked.context msg (checkedAdd w a b)) P := by
  refine context msg fun c hc => ?_
  simp only [Checked.checkedAdd, Option.ite_none_right_eq_some, Option.some.injEq] at hc
  exact hc.2 ▸ h

theorem index {s : List α} {i : Nat} (hlt : i < s.length) (h : ∀ a, s[i]? = some a → P a) :
    Safe (index s i) P := by
  rw [Checked.index, List.getElem?_eq_getElem hlt]
  exact ok (h _ (List.getElem?_eq_getElem hlt))

theorem slice {α : Type} {s : List α} {a b : Nat} {P : List α → Prop} (hle : a ≤ b)
    (hlen : b ≤ s.length) (h : P ((s.drop a).take (b - a))) : Safe (slice s a b) P := by
  rw [Checked.slice, getRange_eq hle hlen]
  exact ok h

end Safe

end Checked
