import Mathlib.Data.List.Forall2
import Mathlib.Tactic.Common

/-! # Fallible Computations

    Inversion rules for `Except`: what follows when a sequence of fallible
    steps, or a loop of fallible checks, succeeds.
-/

namespace Result

/-- A sequence succeeds iff its first step does and the rest then does. -/
theorem bind_eq_ok {ε : Type u} {α β : Type v} {x : Except ε α} {f : α → Except ε β} {b : β} :
    (x >>= f) = .ok b ↔ ∃ a, x = .ok a ∧ f a = .ok b := by
  cases x with
  | error e => simp [bind, Except.bind]
  | ok a => simp [bind, Except.bind]

@[simp] theorem ok_bind {ε : Type u} {α β : Type v} (a : α) (f : α → Except ε β) :
    ((.ok a : Except ε α) >>= f) = f a := rfl

@[simp] theorem pure_eq {ε : Type u} {α : Type v} (a : α) : (pure a : Except ε α) = .ok a := rfl

@[simp] theorem error_bind {ε : Type u} {α β : Type v} (e : ε) (f : α → Except ε β) :
    ((.error e : Except ε α) >>= f) = .error e := rfl

/-- Another error does not change what succeeds. -/
theorem mapError_eq_ok {ε : Type u} {ε' : Type v} {α : Type w} {g : ε → ε'} {x : Except ε α}
    {a : α} : x.mapError g = .ok a ↔ x = .ok a := by
  cases x with
  | error e => simp [Except.mapError]
  | ok b => simp [Except.mapError]

/-- A loop of checks succeeds iff every check does. -/
theorem forM_eq_ok {ε : Type u} {α : Type w} {f : α → Except ε PUnit} {l : List α} :
    forM l f = .ok ⟨⟩ ↔ ∀ a ∈ l, f a = .ok ⟨⟩ := by
  induction l with
  | nil => simp [pure, Except.pure]
  | cons a l ih =>
    rw [List.forM_cons, bind_eq_ok]
    constructor
    · rintro ⟨⟨⟩, ha, hl⟩ b hb
      rcases List.mem_cons.mp hb with rfl | hb
      · exact ha
      · exact ih.mp hl b hb
    · intro h
      exact ⟨⟨⟩, h a List.mem_cons_self,
        ih.mpr fun b hb => h b (List.mem_cons_of_mem _ hb)⟩

/-- What a loop of computations returns, one by one. -/
theorem forall₂_of_mapM {ε : Type u} {α : Type w} {β : Type v} {f : α → Except ε β} {as : List α}
    {bs : List β} (h : as.mapM f = .ok bs) : List.Forall₂ (fun a b => f a = .ok b) as bs := by
  induction as generalizing bs with
  | nil =>
    rw [List.mapM_nil] at h
    obtain rfl := Except.ok.inj h
    exact .nil
  | cons a as ih =>
    rw [List.mapM_cons, bind_eq_ok] at h
    obtain ⟨b, hb, h⟩ := h
    rw [bind_eq_ok] at h
    obtain ⟨rest, hrest, h⟩ := h
    obtain rfl := Except.ok.inj h
    exact .cons hb (ih hrest)

theorem mapM_of_forall₂ {ε : Type u} {α : Type w} {β : Type v} {f : α → Except ε β} {as : List α}
    {bs : List β} (h : List.Forall₂ (fun a b => f a = .ok b) as bs) : as.mapM f = .ok bs := by
  induction h with
  | nil => rfl
  | cons hb _ ih =>
    rw [List.mapM_cons, hb, ok_bind, ih]
    rfl

end Result
