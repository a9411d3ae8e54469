import EchProxy.Framework.Reader

/-! # Sessions

    A protocol says in which state an event may come and where it leads.  A
    computation keeps to it if its events do, also when it fails on the way.
    The judgements have one postcondition for what is returned and one for
    failure, and a rule for each way to build a computation.
-/

/-- A protocol over states in `σ`: where an event leads, if it may come. -/
abbrev Protocol (σ β : Type) := σ → β → Option σ

/-- Where a sequence of events leads. -/
def Protocol.run {σ β : Type} (p : Protocol σ β) : σ → List β → Option σ
  | s, [] => some s
  | s, b :: events => (p s b).bind fun s' => p.run s' events

theorem Protocol.run_append {σ β : Type} (p : Protocol σ β) {s s' : σ} {events events' : List β}
    (h : p.run s events = some s') : p.run s (events ++ events') = p.run s' events' := by
  induction events generalizing s with
  | nil =>
    obtain rfl := Option.some.inj h
    rfl
  | cons b events ih =>
    obtain ⟨mid, hb, hmid⟩ := Option.bind_eq_some_iff.mp h
    rw [List.cons_append, Protocol.run, hb]
    exact ih hmid

theorem Protocol.run_stay {σ β : Type} (p : Protocol σ β) {s : σ} {events : List β}
    (h : ∀ b ∈ events, p s b = some s) : p.run s events = some s := by
  induction events with
  | nil => rfl
  | cons b events ih =>
    rw [Protocol.run, h b List.mem_cons_self]
    exact ih fun c hc => h c (List.mem_cons_of_mem _ hc)

/-! ## Traced computations -/

namespace Traced

variable {ε β α γ σ : Type}

/-- From `s` the events of `x` keep to `p`; they lead to `P` if `x` returns, and to
    `E` if it fails. -/
def Keeps (p : Protocol σ β) (s : σ) (x : Traced ε β α) (P : α → σ → Prop) (E : σ → Prop) :
    Prop :=
  ∃ s', p.run s x.events = some s' ∧
    (∀ a, x.result = .ok a → P a s') ∧ ∀ e, x.result = .error e → E s'

namespace Keeps

variable {p : Protocol σ β} {s s' : σ} {x : Traced ε β α} {P P' : α → σ → Prop} {E E' : σ → Prop}

theorem mono (h : Keeps p s x P E) (hP : ∀ a s', P a s' → P' a s') (hE : ∀ s', E s' → E' s') :
    Keeps p s x P' E' := by
  obtain ⟨s', hrun, hok, herror⟩ := h
  exact ⟨s', hrun, fun a ha => hP a s' (hok a ha), fun e he => hE s' (herror e he)⟩

theorem pure {a : α} (h : P a s) : Keeps p s (pure a : Traced ε β α) P E := by
  refine ⟨s, rfl, fun b hb => ?_, fun e he => (by cases he)⟩
  obtain rfl := Except.ok.inj hb
  exact h

/-- A computation without events stays where it is. -/
theorem lift {r : Except ε α} (hok : ∀ a, r = .ok a → P a s) (herror : ∀ e, r = .error e → E s) :
    Keeps p s (liftM r : Traced ε β α) P E :=
  ⟨s, rfl, hok, herror⟩

theorem emit {b : β} {P : Unit → σ → Prop} (hb : p s b = some s') (h : P () s') :
    Keeps p s (emit b : Traced ε β Unit) P E := by
  refine ⟨s', ?_, fun _ _ => h, fun e he => (by cases he)⟩
  show (p s b).bind some = some s'
  rw [hb]
  rfl

/-- The outcome is what is returned. -/
theorem observe {P : Except ε α → σ → Prop}
    (h : Keeps p s x (fun a => P (.ok a)) fun s' => ∀ e, P (.error e) s') :
    Keeps p s (observe x) P E := by
  obtain ⟨s', hrun, hok, herror⟩ := h
  refine ⟨s', hrun, fun r hr => ?_, fun e he => (by cases he)⟩
  obtain rfl : x.result = r := Except.ok.inj hr
  cases hx : x.result with
  | ok a => exact hok a hx
  | error e => exact herror e hx e

/-- **Sequencing**: the second part goes on from where the first one returns. -/
theorem bind {f : α → Traced ε β γ} {Q : γ → σ → Prop} (hx : Keeps p s x P E)
    (hf : ∀ a s', P a s' → Keeps p s' (f a) Q E) : Keeps p s (x >>= f) Q E := by
  obtain ⟨s', hrun, hok, herror⟩ := hx
  cases hres : x.result with
  | error e =>
    rw [bind_error f hres]
    refine ⟨s', hrun, fun c hc => (by cases hc), fun _ _ => herror e hres⟩
  | ok a =>
    rw [bind_ok f hres]
    obtain ⟨s'', hrun', hok', herror'⟩ := hf a s' (hok a hres)
    exact ⟨s'', (p.run_append hrun).trans hrun', hok', herror'⟩

/-- Sequencing behind a part that leads to one state. -/
theorem bind_at {t : σ} {f : α → Traced ε β γ} {Q : γ → σ → Prop}
    (hx : Keeps p s x (fun _ s' => s' = t) E) (hf : ∀ a, Keeps p t (f a) Q E) :
    Keeps p s (x >>= f) Q E :=
  hx.bind fun a _ ht => ht ▸ hf a

/-- Sequencing behind an event. -/
theorem emit_bind {b : β} {f : Unit → Traced ε β γ} {Q : γ → σ → Prop} (hb : p s b = some s')
    (hf : Keeps p s' (f ()) Q E) : Keeps p s (Traced.emit b >>= f) Q E :=
  (emit hb rfl).bind_at fun _ => hf

/-- Sequencing behind a computation without events. -/
theorem lift_bind {r : Except ε α} {f : α → Traced ε β γ} {Q : γ → σ → Prop} (hE : E s)
    (hf : ∀ a, r = .ok a → Keeps p s (f a) Q E) :
    Keeps p s ((liftM r : Traced ε β α) >>= f) Q E :=
  (lift (P := fun a t => r = .ok a ∧ t = s) (fun _ ha => ⟨ha, rfl⟩) fun _ _ => hE).bind
    fun a _ ⟨ha, ht⟩ => ht ▸ hf a ha

theorem ite {c : Prop} [Decidable c] {y : Traced ε β α} (hx : c → Keeps p s x P E)
    (hy : ¬ c → Keeps p s y P E) : Keeps p s (if c then x else y) P E := by
  by_cases hc : c
  · rw [if_pos hc]
    exact hx hc
  · rw [if_neg hc]
    exact hy hc

/-- Events that lead nowhere. -/
theorem stay (h : Only x fun b => p s b = some s) (hok : ∀ a, x.result = .ok a → P a s)
    (herror : ∀ e, x.result = .error e → E s) : Keeps p s x P E :=
  ⟨s, p.run_stay h, hok, herror⟩

end Keeps

end Traced

/-! ## Readers -/

namespace Reader

variable {ε β τ α γ σ : Type}

/-- On every input the events of `r` keep to `p`. -/
def Keeps (p : Protocol σ β) (s : σ) (r : Reader ε β τ α) (P : α → σ → Prop) (E : σ → Prop) :
    Prop :=
  ∀ input, Traced.Keeps p s (r input) (fun a => P a.1) E

namespace Keeps

variable {p : Protocol σ β} {s : σ} {P : α → σ → Prop} {E : σ → Prop}

theorem pure {a : α} (h : P a s) : Keeps p s (pure a : Reader ε β τ α) P E :=
  fun _ => Traced.Keeps.pure h

theorem lift {x : Traced ε β α} (h : Traced.Keeps p s x P E) :
    Keeps p s (liftM x : Reader ε β τ α) P E :=
  fun _ => h.bind fun _ _ hP => Traced.Keeps.pure hP

theorem bind {r : Reader ε β τ α} {f : α → Reader ε β τ γ} {Q : γ → σ → Prop}
    (hr : Keeps p s r P E) (hf : ∀ a s', P a s' → Keeps p s' (f a) Q E) :
    Keeps p s (r >>= f) Q E := fun input =>
  (hr input).bind fun a s' hP => hf a.1 s' hP a.2

/-- Sequencing behind a part that leads to one state. -/
theorem bind_at {t : σ} {r : Reader ε β τ α} {f : α → Reader ε β τ γ} {Q : γ → σ → Prop}
    (hr : Keeps p s r (fun _ s' => s' = t) E) (hf : ∀ a, Keeps p t (f a) Q E) :
    Keeps p s (r >>= f) Q E :=
  hr.bind fun a _ hs' => hs' ▸ hf a

/-- Sequencing behind a part that only reads. -/
theorem silent_bind {r : Reader ε β τ α} {f : α → Reader ε β τ γ} {Q : γ → σ → Prop}
    (hr : Records r fun _ => False) (hE : E s) (hf : ∀ a, Keeps p s (f a) Q E) :
    Keeps p s (r >>= f) Q E := by
  refine bind_at (fun input => ?_) hf
  exact Traced.Keeps.stay (fun b hb => (hr input b hb).elim) (fun _ _ => rfl) fun _ _ => hE

theorem ite {c : Prop} [Decidable c] {r r' : Reader ε β τ α} (hr : c → Keeps p s r P E)
    (hr' : ¬ c → Keeps p s r' P E) : Keeps p s (if c then r else r') P E := by
  by_cases hc : c
  · rw [if_pos hc]
    exact hr hc
  · rw [if_neg hc]
    exact hr' hc

end Keeps

end Reader
