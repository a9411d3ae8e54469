import EchProxy.Framework.Traced

/-! # Readers

    A traced computation that takes a part of its input off the front.  Two
    judgements say what it takes.  `Reads r used events a`: on any input that
    begins with `used`, `r` takes `used`, records `events` and returns `a`.
    `Takes r P`: whenever `r` returns, what it took, recorded and returned meets
    `P`.  A third one, `Records`, is about its events on every input.  Each has
    a rule for sequencing, so a proof follows the code.
-/

/-- A computation that reads items of `τ`. -/
abbrev Reader (ε β τ : Type) := StateT (List τ) (Traced ε β)

namespace Reader

variable {ε β τ α γ : Type}

/-- The next item; `fail` is the error at the end of the input. -/
def item (fail : ε) : Reader ε β τ τ := fun input =>
  match input with
  | [] => ⟨[], .error fail⟩
  | x :: rest => ⟨[], .ok (x, rest)⟩

/-- The next `n` items. -/
def exactly (fail : ε) (n : Nat) : Reader ε β τ (List τ) := fun input =>
  if n ≤ input.length then ⟨[], .ok (input.take n, input.drop n)⟩ else ⟨[], .error fail⟩

/-! ## Running -/

theorem bind_run (r : Reader ε β τ α) (f : α → Reader ε β τ γ) (input : List τ) :
    (r >>= f) input = (r input >>= fun p => f p.1 p.2) := rfl

theorem lift_run (x : Traced ε β α) (input : List τ) :
    (liftM x : Reader ε β τ α) input = (x >>= fun a => pure (a, input)) := rfl

/-- What a sequence that returns did. -/
theorem bind_eq_ok {r : Reader ε β τ α} {f : α → Reader ε β τ γ} {input rest : List τ}
    {events : List β} {c : γ} (h : (r >>= f) input = ⟨events, .ok (c, rest)⟩) :
    ∃ a mid e₁ e₂, r input = ⟨e₁, .ok (a, mid)⟩ ∧ f a mid = ⟨e₂, .ok (c, rest)⟩ ∧
      events = e₁ ++ e₂ := by
  rw [bind_run] at h
  obtain ⟨⟨a, mid⟩, e₁, e₂, hr, hf, hevents⟩ := Traced.bind_eq_ok h
  exact ⟨a, mid, e₁, e₂, hr, hf, hevents⟩

/-! ## What is taken off a known input -/

/-- On input that begins with `used`, `r` takes it and returns `a`. -/
def Reads (r : Reader ε β τ α) (used : List τ) (events : List β) (a : α) : Prop :=
  ∀ rest, r (used ++ rest) = ⟨events, .ok (a, rest)⟩

namespace Reads

theorem pure (a : α) : Reads (pure a : Reader ε β τ α) [] [] a := fun _ => rfl

theorem item (fail : ε) (x : τ) : Reads (item fail : Reader ε β τ τ) [x] [] x := fun _ => rfl

theorem exactly (fail : ε) {n : Nat} {xs : List τ} (h : xs.length = n) :
    Reads (exactly fail n : Reader ε β τ (List τ)) xs [] xs := by
  intro rest
  have hlength : xs.length ≤ (xs ++ rest).length := by simp
  rw [← h, Reader.exactly, if_pos hlength, List.take_left, List.drop_left]

/-- A computation that reads nothing. -/
theorem lift {x : Traced ε β α} {events : List β} {a : α} (h : x = ⟨events, .ok a⟩) :
    Reads (liftM x : Reader ε β τ α) [] events a := by
  intro rest
  rw [lift_run, h, Traced.bind_ok _ rfl]
  simp

/-- **Sequencing**: what is used and recorded is split where the first part
    ends. -/
theorem bind {r : Reader ε β τ α} {f : α → Reader ε β τ γ} {used used₁ used₂ : List τ}
    {events events₁ events₂ : List β} {a : α} {c : γ} (hr : Reads r used₁ events₁ a)
    (hf : Reads (f a) used₂ events₂ c) (hused : used = used₁ ++ used₂)
    (hevents : events = events₁ ++ events₂) : Reads (r >>= f) used events c := by
  intro rest
  rw [bind_run, hused, hevents, List.append_assoc, hr, Traced.bind_ok _ rfl, hf]

/-- After a part that records nothing comes the rest. -/
theorem run_bind {r : Reader ε β τ α} {used : List τ} {a : α} (hr : Reads r used [] a)
    (f : α → Reader ε β τ γ) (rest : List τ) : (r >>= f) (used ++ rest) = f a rest := by
  rw [bind_run, hr, Traced.bind_ok _ rfl]
  rfl

end Reads

/-! ## What is taken off any input -/

/-- Whenever `r` returns, what it took, recorded and returned meets `P`. -/
def Takes (r : Reader ε β τ α) (P : List τ → List β → α → Prop) : Prop :=
  ∀ input events a rest, r input = ⟨events, .ok (a, rest)⟩ →
    ∃ used, input = used ++ rest ∧ P used events a

namespace Takes

variable {P Q : List τ → List β → α → Prop}

theorem mono {r : Reader ε β τ α} (h : Takes r P)
    (himp : ∀ used events a, P used events a → Q used events a) : Takes r Q := by
  intro input events a rest hrun
  obtain ⟨used, hinput, hP⟩ := h input events a rest hrun
  exact ⟨used, hinput, himp _ _ _ hP⟩

theorem pure (a : α) :
    Takes (pure a : Reader ε β τ α) fun used events b => used = [] ∧ events = [] ∧ b = a := by
  intro input events b rest hrun
  obtain ⟨rfl, hresult⟩ := Traced.mk.inj hrun
  obtain ⟨rfl, rfl⟩ := Prod.mk.inj (Except.ok.inj hresult)
  exact ⟨[], rfl, rfl, rfl, rfl⟩

theorem item (fail : ε) :
    Takes (item fail : Reader ε β τ τ) fun used events x => used = [x] ∧ events = [] := by
  intro input events x rest hrun
  cases input with
  | nil => cases hrun
  | cons y ys =>
    obtain ⟨rfl, hresult⟩ := Traced.mk.inj hrun
    obtain ⟨rfl, rfl⟩ := Prod.mk.inj (Except.ok.inj hresult)
    exact ⟨[y], rfl, rfl, rfl⟩

theorem exactly (fail : ε) (n : Nat) :
    Takes (exactly fail n : Reader ε β τ (List τ)) fun used events xs =>
      used = xs ∧ xs.length = n ∧ events = [] := by
  intro input events xs rest hrun
  unfold Reader.exactly at hrun
  split at hrun
  · next hle =>
    obtain ⟨rfl, hresult⟩ := Traced.mk.inj hrun
    obtain ⟨rfl, rfl⟩ := Prod.mk.inj (Except.ok.inj hresult)
    exact ⟨_, (List.take_append_drop n input).symm, rfl, List.length_take_of_le hle, rfl⟩
  · cases hrun

/-- A computation that reads nothing. -/
theorem lift (x : Traced ε β α) :
    Takes (liftM x : Reader ε β τ α) fun used events a => used = [] ∧ x = ⟨events, .ok a⟩ := by
  intro input events a rest hrun
  rw [lift_run] at hrun
  cases hx : x.result with
  | error e =>
    rw [Traced.bind_error _ hx] at hrun
    cases hrun
  | ok b =>
    rw [Traced.bind_ok _ hx] at hrun
    obtain ⟨hevents, hresult⟩ := Traced.mk.inj hrun
    obtain ⟨rfl, rfl⟩ := Prod.mk.inj (Except.ok.inj hresult)
    refine ⟨[], rfl, rfl, ?_⟩
    rw [← hx, ← hevents]
    simp

theorem ite {c : Prop} [Decidable c] {r r' : Reader ε β τ α} (hr : c → Takes r P)
    (hr' : ¬ c → Takes r' P) : Takes (if c then r else r') P := by
  by_cases hc : c
  · rw [if_pos hc]
    exact hr hc
  · rw [if_neg hc]
    exact hr' hc

/-- An error returns nothing. -/
theorem error (e : ε) : Takes (liftM (⟨[], .error e⟩ : Traced ε β α) : Reader ε β τ α) P := by
  refine mono (lift _) fun used events a h => ?_
  cases h.2

/-- **Sequencing**: the second part is met after what the first one took. -/
theorem bind {r : Reader ε β τ α} {f : α → Reader ε β τ γ} {R : List τ → List β → γ → Prop}
    (hr : Takes r P)
    (hf : ∀ used events a, P used events a →
      Takes (f a) fun used' events' c => R (used ++ used') (events ++ events') c) :
    Takes (r >>= f) R := by
  intro input events c rest hrun
  obtain ⟨a, mid, e₁, e₂, h₁, h₂, rfl⟩ := bind_eq_ok hrun
  obtain ⟨u₁, rfl, hP⟩ := hr _ _ _ _ h₁
  obtain ⟨u₂, rfl, hR⟩ := hf _ _ _ hP _ _ _ _ h₂
  exact ⟨u₁ ++ u₂, (List.append_assoc _ _ _).symm, hR⟩

end Takes

/-! ## What is recorded, also on the way to an error -/

/-- Everything `r` records meets `P`. -/
def Records (r : Reader ε β τ α) (P : β → Prop) : Prop := ∀ input, (r input).Only P

namespace Records

variable {P : β → Prop}

theorem pure (a : α) : Records (pure a : Reader ε β τ α) P := fun _ => Traced.Only.pure _

theorem item (fail : ε) : Records (item fail : Reader ε β τ τ) P := by
  intro input b hb
  cases input <;> cases hb

theorem exactly (fail : ε) (n : Nat) : Records (exactly fail n : Reader ε β τ (List τ)) P := by
  intro input b hb
  unfold Reader.exactly at hb
  split at hb <;> cases hb

theorem lift {x : Traced ε β α} (h : x.Only P) : Records (liftM x : Reader ε β τ α) P :=
  fun _ => h.bind fun _ _ => Traced.Only.pure _

theorem ite {c : Prop} [Decidable c] {r r' : Reader ε β τ α} (hr : Records r P)
    (hr' : Records r' P) : Records (if c then r else r') P := by
  split
  · exact hr
  · exact hr'

theorem bind {r : Reader ε β τ α} {f : α → Reader ε β τ γ} (hr : Records r P)
    (hf : ∀ a, Records (f a) P) : Records (r >>= f) P := fun input =>
  (hr input).bind fun p _ => hf p.1 p.2

end Records

/-! ## How far a computation reads -/

/-- `r` takes at most `n` items, and on input as long as that it does not depend on what
    is behind it. -/
structure Within (r : Reader ε β τ α) (n : Nat) : Prop where
  takes : Takes r fun used _ _ => used.length ≤ n
  decided : ∀ input more, n ≤ input.length →
    r (input ++ more) = ⟨(r input).events, (r input).result.map fun p => (p.1, p.2 ++ more)⟩

namespace Within

variable {n m : Nat}

theorem mono {r : Reader ε β τ α} (h : Within r n) (hle : n ≤ m) : Within r m where
  takes := h.takes.mono fun _ _ _ hused => Nat.le_trans hused hle
  decided input more hm := h.decided input more (Nat.le_trans hle hm)

/-- A computation that reads nothing. -/
theorem lift (x : Traced ε β α) : Within (liftM x : Reader ε β τ α) 0 where
  takes := (Takes.lift x).mono fun _ _ _ ⟨hused, _⟩ => Nat.le_of_eq (congrArg List.length hused)
  decided input more _ := by
    rw [lift_run, lift_run]
    cases hx : x.result with
    | error e =>
      rw [Traced.bind_error _ hx, Traced.bind_error _ hx]
      rfl
    | ok a =>
      rw [Traced.bind_ok _ hx, Traced.bind_ok _ hx]
      rfl

theorem pure (a : α) : Within (pure a : Reader ε β τ α) 0 where
  takes := (Takes.pure a).mono fun _ _ _ ⟨hused, _⟩ => Nat.le_of_eq (congrArg List.length hused)
  decided _ _ _ := rfl

theorem item (fail : ε) : Within (item fail : Reader ε β τ τ) 1 where
  takes := (Takes.item fail).mono fun _ _ _ ⟨hused, _⟩ => Nat.le_of_eq (congrArg List.length hused)
  decided input more hlength := by
    cases input with
    | nil => exact absurd hlength (Nat.not_succ_le_zero 0)
    | cons x rest => rfl

theorem exactly (fail : ε) (n : Nat) : Within (exactly fail n : Reader ε β τ (List τ)) n where
  takes := (Takes.exactly fail n).mono fun used _ xs ⟨hused, hlength, _⟩ =>
    Nat.le_of_eq (hused ▸ hlength : used.length = n)
  decided input more hlength := by
    have hmore : n ≤ (input ++ more).length := Nat.le_trans hlength (by simp)
    rw [Reader.exactly, Reader.exactly, if_pos hlength, if_pos hmore,
      List.take_append_of_le_length hlength, List.drop_append_of_le_length hlength]
    rfl

theorem ite {c : Prop} [Decidable c] {r r' : Reader ε β τ α} (hr : Within r n)
    (hr' : Within r' n) : Within (if c then r else r') n := by
  split
  · exact hr
  · exact hr'

/-- **Sequencing**: the second part reads on where the first one ended. -/
theorem bind {r : Reader ε β τ α} {f : α → Reader ε β τ γ} (hr : Within r n)
    (hf : ∀ a, Within (f a) m) : Within (r >>= f) (n + m) where
  takes := hr.takes.bind fun used _ a hused =>
    (hf a).takes.mono fun used' _ _ hused' => by
      rw [List.length_append]
      exact Nat.add_le_add hused hused'
  decided input more hlength := by
    rw [bind_run, bind_run, hr.decided input more (by omega)]
    cases hres : (r input).result with
    | error e =>
      rw [Traced.bind_error _ hres]
      rfl
    | ok p =>
      obtain ⟨a, mid⟩ := p
      -- what the first part leaves is long enough for the second one
      obtain ⟨used, rfl, hused⟩ := hr.takes input (r input).events a mid (by rw [← hres])
      have hmid : m ≤ mid.length := by
        rw [List.length_append] at hlength
        omega
      rw [Traced.bind_ok _ hres, Traced.bind_ok (a := (a, mid ++ more)) _ rfl]
      show Traced.mk (_ ++ (f a (mid ++ more)).events) (f a (mid ++ more)).result = _
      rw [(hf a).decided mid more hmid]

end Within

end Reader
