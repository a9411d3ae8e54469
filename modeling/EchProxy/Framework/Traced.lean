import EchProxy.Framework.Result
import Mathlib.Tactic.Common

/-! # Traced Computations

    A fallible computation that records what it does on the way.  The record
    stays when a later step fails.  `Only x P` says that everything `x`
    records meets `P`; the rules below let a proof follow the code.
-/

/-- A computation with events in `β` and errors in `ε`. -/
structure Traced (ε β α : Type) where
  events : List β
  result : Except ε α
  deriving DecidableEq

namespace Traced

variable {ε β α γ : Type}

instance : Monad (Traced ε β) where
  pure a := ⟨[], .ok a⟩
  bind x f :=
    match x.result with
    | .ok a => ⟨x.events ++ (f a).events, (f a).result⟩
    | .error e => ⟨x.events, .error e⟩

/-- A computation without events. -/
def lift (x : Except ε α) : Traced ε β α := ⟨[], x⟩

instance : MonadLift (Except ε) (Traced ε β) where
  monadLift := lift

/-- Record an event. -/
def emit (b : β) : Traced ε β Unit := ⟨[b], .ok ()⟩

/-- The same with its events renamed. -/
def mapEvents (f : β → γ) (x : Traced ε β α) : Traced ε γ α := ⟨x.events.map f, x.result⟩

/-- Go on with the outcome, whichever it is. -/
def observe (x : Traced ε β α) : Traced ε β (Except ε α) := ⟨x.events, .ok x.result⟩

/-! ## Running -/

@[simp] theorem pure_eq (a : α) : (pure a : Traced ε β α) = ⟨[], .ok a⟩ := rfl

theorem bind_ok {x : Traced ε β α} {a : α} (f : α → Traced ε β γ) (h : x.result = .ok a) :
    (x >>= f) = ⟨x.events ++ (f a).events, (f a).result⟩ := by
  simp only [bind, h]

theorem bind_error {x : Traced ε β α} {e : ε} (f : α → Traced ε β γ) (h : x.result = .error e) :
    (x >>= f) = ⟨x.events, .error e⟩ := by
  simp only [bind, h]

@[simp] theorem lift_events (r : Except ε α) : (liftM r : Traced ε β α).events = [] := rfl

@[simp] theorem lift_result (r : Except ε α) : (liftM r : Traced ε β α).result = r := rfl

@[simp] theorem lift_ok_bind (a : α) (f : α → Traced ε β γ) :
    ((liftM (.ok a : Except ε α) : Traced ε β α) >>= f) = f a := by
  rw [bind_ok f rfl]
  rfl

@[simp] theorem emit_bind (b : β) (f : Unit → Traced ε β γ) :
    (emit b >>= f) = ⟨b :: (f ()).events, (f ()).result⟩ :=
  bind_ok f rfl

@[simp] theorem observe_bind (x : Traced ε β α) (f : Except ε α → Traced ε β γ) :
    (observe x >>= f) = ⟨x.events ++ (f x.result).events, (f x.result).result⟩ :=
  bind_ok f rfl

theorem result_bind (x : Traced ε β α) (f : α → Traced ε β γ) :
    (x >>= f).result = x.result >>= fun a => (f a).result := by
  cases h : x.result with
  | error e => rw [bind_error f h, Result.error_bind]
  | ok a => rw [bind_ok f h, Result.ok_bind]

/-- What follows counts only for what the first part returns. -/
theorem bind_congr {x : Traced ε β α} {f g : α → Traced ε β γ}
    (h : ∀ a, x.result = .ok a → f a = g a) : (x >>= f) = (x >>= g) := by
  cases hx : x.result with
  | error e => rw [bind_error f hx, bind_error g hx]
  | ok a => rw [bind_ok f hx, bind_ok g hx, h a hx]

/-- What a sequence that returns did. -/
theorem bind_eq_ok {x : Traced ε β α} {f : α → Traced ε β γ} {events : List β} {c : γ}
    (h : (x >>= f) = ⟨events, .ok c⟩) :
    ∃ a e₁ e₂, x = ⟨e₁, .ok a⟩ ∧ f a = ⟨e₂, .ok c⟩ ∧ events = e₁ ++ e₂ := by
  cases hx : x.result with
  | error e =>
    rw [bind_error f hx] at h
    cases h
  | ok a =>
    rw [bind_ok f hx] at h
    obtain ⟨hevents, hresult⟩ := mk.inj h
    refine ⟨a, x.events, (f a).events, ?_, ?_, hevents.symm⟩
    · rw [← hx]
    · rw [← hresult]

/-- What the first part records stays. -/
theorem events_bind (x : Traced ε β α) (f : α → Traced ε β γ) :
    ∃ more, (x >>= f).events = x.events ++ more := by
  cases hx : x.result with
  | error e =>
    rw [bind_error f hx]
    exact ⟨[], (List.append_nil _).symm⟩
  | ok a =>
    rw [bind_ok f hx]
    exact ⟨_, rfl⟩

theorem mem_bind {x : Traced ε β α} {b : β} (h : b ∈ x.events) (f : α → Traced ε β γ) :
    b ∈ (x >>= f).events := by
  obtain ⟨more, hmore⟩ := events_bind x f
  rw [hmore]
  exact List.mem_append_left _ h

/-- An event of a sequence is one of the first part, or of what follows its return. -/
theorem mem_bind_iff {x : Traced ε β α} {f : α → Traced ε β γ} {b : β} :
    b ∈ (x >>= f).events ↔ b ∈ x.events ∨ ∃ a, x.result = .ok a ∧ b ∈ (f a).events := by
  cases hx : x.result with
  | error e =>
    rw [bind_error f hx]
    constructor
    · exact .inl
    · rintro (h | ⟨_, ha, -⟩)
      · exact h
      · cases ha
  | ok a =>
    rw [bind_ok f hx, List.mem_append]
    apply or_congr_right
    constructor
    · intro h
      exact ⟨a, rfl, h⟩
    · rintro ⟨_, ha, h⟩
      obtain rfl := Except.ok.inj ha
      exact h

theorem mem_lift_bind {r : Except ε α} {f : α → Traced ε β γ} {b : β} :
    b ∈ ((liftM r : Traced ε β α) >>= f).events ↔ ∃ a, r = .ok a ∧ b ∈ (f a).events := by
  rw [mem_bind_iff, lift_events, lift_result]
  exact or_iff_right List.not_mem_nil

theorem mem_emit_bind {c : β} {f : Unit → Traced ε β γ} {b : β} :
    b ∈ (emit c >>= f).events ↔ b = c ∨ b ∈ (f ()).events := by
  rw [emit_bind, List.mem_cons]

/-! ## The judgement -/

/-- Every event of `x` meets `P`. -/
def Only (x : Traced ε β α) (P : β → Prop) : Prop :=
  ∀ b ∈ x.events, P b

namespace Only

variable {x : Traced ε β α} {P Q : β → Prop}

theorem pure (a : α) : Only (pure a : Traced ε β α) P :=
  fun _ hb => by cases hb

theorem lift (r : Except ε α) : Only (liftM r : Traced ε β α) P :=
  fun _ hb => by cases hb

theorem emit {b : β} (h : P b) : Only (emit b : Traced ε β Unit) P :=
  fun c hc => by
    rw [List.mem_singleton.mp hc]
    exact h

theorem observe (h : Only x P) : Only (observe x) P := h

theorem mono (h : Only x P) (himp : ∀ b, P b → Q b) : Only x Q :=
  fun b hb => himp b (h b hb)

/-- **Sequencing**: the events are those of the first part and of what follows
    it. -/
theorem bind {f : α → Traced ε β γ} (hx : Only x P)
    (hf : ∀ a, x.result = .ok a → Only (f a) P) : Only (x >>= f) P := by
  cases hres : x.result with
  | error e =>
    rw [bind_error f hres]
    exact hx
  | ok a =>
    rw [bind_ok f hres]
    exact List.forall_mem_append.mpr ⟨hx, hf a hres⟩

/-- The events of a sequence begin with those of its first part. -/
theorem bind_events (x : Traced ε β α) {f : α → Traced ε β γ} (hf : ∀ a, Only (f a) P) :
    ∃ more, (x >>= f).events = x.events ++ more ∧ ∀ b ∈ more, P b := by
  cases hres : x.result with
  | error e =>
    rw [bind_error f hres]
    exact ⟨[], (List.append_nil _).symm, fun b hb => by cases hb⟩
  | ok a =>
    rw [bind_ok f hres]
    exact ⟨_, rfl, hf a⟩

theorem ite {c : Prop} [Decidable c] {y : Traced ε β α} (hx : c → Only x P)
    (hy : ¬ c → Only y P) : Only (if c then x else y) P := by
  by_cases hc : c
  · rw [if_pos hc]
    exact hx hc
  · rw [if_neg hc]
    exact hy hc

end Only

end Traced
