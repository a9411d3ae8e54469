import Mathlib.Data.List.Basic
import Mathlib.Tactic.Common

/-! # Guarded Labelled Transition Systems

    A system is an initial-state predicate together with an executable,
    guarded step function: `step s l` is `some s'` when label `l` is enabled
    in `s` and leads to `s'`, and `none` when it is disabled.  All
    nondeterminism (scheduling, the environment, failures) sits in the choice
    of the label.

    The module collects what the rest of the development needs:

    * **Reachability** and the invariant rule (holds initially, preserved by
      every step, hence holds in every reachable state).
    * **Restriction** of a system to the steps that meet a condition, which is
      how "every run whose steps all meet the condition" is stated.
    * **Replay** of a concrete list of labels, and the step of a run that a
      property goes back to.
    * **Termination** by a well-founded measure, and the complete runs it gives.
    * **Forward simulation**: a state map under which every concrete step is
      an abstract step or a stutter.
-/

namespace Lts

/-- A guarded labelled transition system. -/
structure System (State : Type u) (Label : Type v) where
  /-- Initial states. -/
  init : State → Prop
  /-- The successor under a label, if the label is enabled. -/
  step : State → Label → Option State

namespace System

variable {State : Type u} {Label : Type v}

/-! ## Reachability and invariants -/

/-- States reachable from an initial state through enabled labels. -/
inductive Reachable (sys : System State Label) : State → Prop where
  | init {s : State} : sys.init s → Reachable sys s
  | step {s s' : State} {l : Label} :
      Reachable sys s → sys.step s l = some s' → Reachable sys s'

/-- **Invariant rule.** -/
theorem invariant (sys : System State Label) (inv : State → Prop)
    (hinit : ∀ s, sys.init s → inv s)
    (hstep : ∀ s l s', inv s → sys.step s l = some s' → inv s') :
    ∀ s, sys.Reachable s → inv s := by
  intro s hr
  induction hr with
  | init h => exact hinit _ h
  | step _ hs ih => exact hstep _ _ _ ih hs

/-- **Invariant rule, relative to a known invariant**: the step obligation may
    use that both ends of the step are reachable. -/
theorem invariant_of_reachable (sys : System State Label) (inv : State → Prop)
    (hinit : ∀ s, sys.init s → inv s)
    (hstep : ∀ s l s', sys.Reachable s → inv s → sys.step s l = some s' → inv s') :
    ∀ s, sys.Reachable s → inv s := by
  intro s hr
  induction hr with
  | init h => exact hinit _ h
  | step hr' hs ih => exact hstep _ _ _ hr' ih hs

/-- No label is enabled. -/
def Quiescent (sys : System State Label) (s : State) : Prop :=
  ∀ l, sys.step s l = none

/-! ## Replay -/

/-- Replays a list of labels; `none` if one of them is disabled on the way. -/
def run (sys : System State Label) (s : State) (ls : List Label) : Option State :=
  ls.foldlM sys.step s

@[simp] theorem run_nil (sys : System State Label) (s : State) : sys.run s [] = some s :=
  rfl

@[simp] theorem run_cons (sys : System State Label) (s : State) (l : Label)
    (ls : List Label) :
    sys.run s (l :: ls) = (sys.step s l).bind fun s' => sys.run s' ls :=
  rfl

/-- A run goes through the state before each of its steps. -/
theorem run_split {sys : System State Label} {s s' : State} {before after : List Label} {l : Label}
    (h : sys.run s (before ++ l :: after) = some s') :
    ∃ s₁ s₂, sys.run s before = some s₁ ∧ sys.step s₁ l = some s₂ ∧ sys.run s₂ after = some s' := by
  rw [run, List.foldlM_append, Option.bind_eq_bind, Option.bind_eq_some_iff] at h
  obtain ⟨s₁, hbefore, h⟩ := h
  obtain ⟨s₂, hl, hafter⟩ := Option.bind_eq_some_iff.mp h
  exact ⟨s₁, s₂, hbefore, hl, hafter⟩

/-- A system that can do more can do the same. -/
theorem run_mono {sys sys' : System State Label}
    (hsub : ∀ s l s', sys.step s l = some s' → sys'.step s l = some s') {s s' : State}
    {ls : List Label} (h : sys.run s ls = some s') : sys'.run s ls = some s' := by
  induction ls generalizing s with
  | nil => exact h
  | cons l ls ih =>
    rw [run_cons, Option.bind_eq_some_iff] at h ⊢
    obtain ⟨s₁, hl, hls⟩ := h
    exact ⟨s₁, hsub s l s₁ hl, ih hls⟩

/-- Replay never leaves the reachable states. -/
theorem reachable_of_run {sys : System State Label} {s s' : State} {ls : List Label}
    (hs : sys.Reachable s) (h : sys.run s ls = some s') : sys.Reachable s' := by
  induction ls generalizing s with
  | nil =>
    rw [run_nil, Option.some.injEq] at h
    exact h ▸ hs
  | cons l ls ih =>
    rw [run_cons, Option.bind_eq_some_iff] at h
    obtain ⟨s₁, hl, hls⟩ := h
    exact ih (.step hs hl) hls

/-- **Origin rule**: what holds at the end of a run and not at its start was
    brought about by a step of the run. -/
theorem run_origin {sys : System State Label} {P : State → Prop} {C : State → Label → Prop}
    (hstep : ∀ s l s', sys.Reachable s → sys.step s l = some s' → P s' → P s ∨ C s l)
    {s s' : State} {ls : List Label} (hr : sys.Reachable s) (h : sys.run s ls = some s')
    (hnot : ¬ P s) (hP : P s') :
    ∃ before l after s₁ s₂, ls = before ++ l :: after ∧ sys.run s before = some s₁ ∧
      sys.step s₁ l = some s₂ ∧ C s₁ l := by
  induction ls generalizing s with
  | nil =>
    rw [run_nil, Option.some.injEq] at h
    exact absurd (h ▸ hP) hnot
  | cons l ls ih =>
    rw [run_cons, Option.bind_eq_some_iff] at h
    obtain ⟨s₁, hl, hls⟩ := h
    by_cases hfirst : P s₁
    · have hcause := (hstep s l s₁ hr hl hfirst).resolve_left hnot
      exact ⟨[], l, ls, s, s₁, rfl, rfl, hl, hcause⟩
    · obtain ⟨before, l', after, s₂, s₃, rfl, hbefore, hl', hcause⟩ := ih (.step hr hl) hls hfirst
      refine ⟨l :: before, l', after, s₂, s₃, rfl, ?_, hl', hcause⟩
      rw [run_cons, hl]
      exact hbefore

/-! ## Restriction -/

/-- The system with only those steps that meet `ok`. -/
def restrict (sys : System State Label) (ok : State → Label → Prop)
    [∀ s l, Decidable (ok s l)] : System State Label where
  init := sys.init
  step := fun s l => if ok s l then sys.step s l else none

section restriction
variable {sys : System State Label} {ok : State → Label → Prop}
  [∀ s l, Decidable (ok s l)]

theorem restrict_step_iff {s s' : State} {l : Label} :
    (sys.restrict ok).step s l = some s' ↔ ok s l ∧ sys.step s l = some s' := by
  simp only [restrict]
  split <;> simp_all

theorem restrict_step_none {s : State} {l : Label} (h : (sys.restrict ok).step s l = none)
    (hok : ok s l) : sys.step s l = none := by
  simp only [restrict] at h
  rwa [if_pos hok] at h

theorem Reachable.of_restrict {s : State} (h : (sys.restrict ok).Reachable s) :
    sys.Reachable s := by
  induction h with
  | init h => exact .init h
  | step _ hs ih => exact .step ih (restrict_step_iff.mp hs).2

theorem run_of_restrict {s s' : State} {ls : List Label}
    (h : (sys.restrict ok).run s ls = some s') : sys.run s ls = some s' :=
  run_mono (fun _ _ _ hs => (restrict_step_iff.mp hs).2) h

/-- A run is one of the restricted system when its steps all meet the condition. -/
theorem restrict_run_iff {s s' : State} {ls : List Label} (h : sys.run s ls = some s') :
    (sys.restrict ok).run s ls = some s' ↔
      ∀ before l after s₁, ls = before ++ l :: after → sys.run s before = some s₁ → ok s₁ l := by
  constructor
  · rintro hrun before l after s₁ rfl hbefore
    obtain ⟨s₂, s₃, hbefore', hl, -⟩ := run_split hrun
    obtain rfl := Option.some.inj (hbefore.symm.trans (run_of_restrict hbefore'))
    exact (restrict_step_iff.mp hl).1
  · intro hall
    induction ls generalizing s with
    | nil => exact h
    | cons l ls ih =>
      rw [run_cons, Option.bind_eq_some_iff] at h ⊢
      obtain ⟨s₁, hl, hls⟩ := h
      refine ⟨s₁, restrict_step_iff.mpr ⟨hall [] l ls s rfl rfl, hl⟩, ih hls ?_⟩
      rintro before l' after s₂ rfl hbefore
      refine hall (l :: before) l' after s₂ rfl ?_
      rw [run_cons, hl]
      exact hbefore

/-- A run either meets the condition at every step, or ends in the aftermath
    of a step that did not. -/
theorem run_restrict_or {bad : State → Prop}
    (hbad : ∀ s l s', sys.Reachable s → sys.step s l = some s' → ¬ ok s l → bad s')
    (hstay : ∀ s l s', sys.Reachable s → sys.step s l = some s' → bad s → bad s')
    {s s' : State} {ls : List Label} (hr : sys.Reachable s) (h : sys.run s ls = some s') :
    (sys.restrict ok).run s ls = some s' ∨ bad s' := by
  -- once bad, a run ends bad
  have hends : ∀ (ls : List Label) (s : State), sys.Reachable s → bad s →
      sys.run s ls = some s' → bad s' := by
    intro ls
    induction ls with
    | nil =>
      intro s _ hb hrun
      exact Option.some.inj hrun ▸ hb
    | cons l ls ih =>
      intro s hr hb hrun
      rw [run_cons, Option.bind_eq_some_iff] at hrun
      obtain ⟨s₁, hl, hls⟩ := hrun
      exact ih s₁ (.step hr hl) (hstay s l s₁ hr hl hb) hls
  induction ls generalizing s with
  | nil => exact .inl h
  | cons l ls ih =>
    rw [run_cons, Option.bind_eq_some_iff] at h
    obtain ⟨s₁, hl, hls⟩ := h
    by_cases hok : ok s l
    · rcases ih (.step hr hl) hls with hrest | hb
      · refine .inl ?_
        rw [run_cons, restrict_step_iff.mpr ⟨hok, hl⟩]
        exact hrest
      · exact .inr hb
    · exact .inr (hends ls s₁ (.step hr hl) (hbad s l s₁ hr hl hok) hls)

/-- **Exactness over runs**: where the steps that meet the condition keep the
    state good and every other step makes it bad, a run stays good all the way
    exactly when its steps all meet the condition. -/
theorem run_good_iff {good : State → Prop}
    (hgood : ∀ s, (sys.restrict ok).Reachable s → good s)
    (hbad : ∀ s l s', (sys.restrict ok).Reachable s → sys.step s l = some s' → ¬ ok s l →
      ¬ good s')
    {s s' : State} {ls : List Label} (hr : (sys.restrict ok).Reachable s)
    (h : sys.run s ls = some s') :
    (∀ pre s₁, pre <+: ls → sys.run s pre = some s₁ → good s₁) ↔
      (sys.restrict ok).run s ls = some s' := by
  induction ls generalizing s with
  | nil =>
    refine ⟨fun _ => h, fun _ pre s₁ hpre hs₁ => ?_⟩
    obtain rfl := List.prefix_nil.mp hpre
    exact Option.some.inj hs₁ ▸ hgood s hr
  | cons l ls ih =>
    rw [run_cons, Option.bind_eq_some_iff] at h
    obtain ⟨s₂, hl, hls⟩ := h
    constructor
    · intro hall
      -- a first step outside the restriction would leave a state that is not good
      have hok : ok s l := by
        by_contra hnot
        refine hbad s l s₂ hr hl hnot (hall [l] s₂ ⟨ls, rfl⟩ ?_)
        rw [run_cons, hl]
        rfl
      have hstep := restrict_step_iff.mpr ⟨hok, hl⟩
      rw [run_cons, hstep]
      refine (ih (.step hr hstep) hls).mp fun pre s₁ hpre hs₁ => ?_
      refine hall (l :: pre) s₁ ((List.prefix_cons_inj l).mpr hpre) ?_
      rw [run_cons, hl]
      exact hs₁
    · intro hrun pre s₁ hpre hs₁
      rw [run_cons, Option.bind_eq_some_iff] at hrun
      obtain ⟨s₃, hstep, hrest⟩ := hrun
      obtain ⟨-, hl'⟩ := restrict_step_iff.mp hstep
      -- both runs take the same step
      obtain rfl := Option.some.inj (hl.symm.trans hl')
      cases pre with
      | nil => exact Option.some.inj hs₁ ▸ hgood s hr
      | cons l' pre =>
        obtain ⟨rfl, hpre'⟩ := List.cons_prefix_cons.mp hpre
        rw [run_cons, hl] at hs₁
        exact (ih (.step hr hstep) hls).mpr hrest pre s₁ hpre' hs₁

end restriction

/-! ## Termination -/

/-- `Next s' s`: some step leads from `s` to `s'`. -/
def Next (sys : System State Label) (s' s : State) : Prop :=
  ∃ l, sys.step s l = some s'

/-- No run goes on forever. -/
def Terminates (sys : System State Label) : Prop :=
  ∀ s, sys.Reachable s → Acc sys.Next s

/-- **Termination rule**: every step lowers a measure with values in a
    well-founded order. -/
theorem terminates_of_measure {α : Type w} {r : α → α → Prop} (hwf : WellFounded r)
    {sys : System State Label} (μ : State → α)
    (hμ : ∀ s l s', sys.Reachable s → sys.step s l = some s' → r (μ s') (μ s)) :
    sys.Terminates := by
  intro s hr
  induction hn : μ s using hwf.induction generalizing s with
  | _ n ih =>
    constructor
    intro s' ⟨l, hl⟩
    have hlt := hμ s l s' hr hl
    rw [hn] at hlt
    exact ih (μ s') hlt s' (.step hr hl) rfl

section termination
variable {sys : System State Label}

/-- With fewer steps a system still terminates. -/
theorem Terminates.restrict (h : sys.Terminates) (ok : State → Label → Prop)
    [∀ s l, Decidable (ok s l)] : (sys.restrict ok).Terminates := by
  intro s hr
  have hsub : Subrelation (sys.restrict ok).Next sys.Next := by
    intro s' s ⟨l, hl⟩
    exact ⟨l, (restrict_step_iff.mp hl).2⟩
  exact hsub.accessible (h s hr.of_restrict)

/-- Every state of a terminating system has a run to a quiescent state. -/
theorem Terminates.exists_quiescent (h : sys.Terminates) {s : State} (hr : sys.Reachable s) :
    ∃ ls s', sys.run s ls = some s' ∧ sys.Quiescent s' := by
  induction h s hr with
  | intro s _ ih =>
    by_cases hq : sys.Quiescent s
    · exact ⟨[], s, rfl, hq⟩
    · simp only [Quiescent, not_forall] at hq
      obtain ⟨l, hl⟩ := hq
      obtain ⟨s₁, hs₁⟩ := Option.ne_none_iff_exists'.mp hl
      obtain ⟨ls, s', hrun, hq'⟩ := ih s₁ ⟨l, hs₁⟩ (.step hr hs₁)
      refine ⟨l :: ls, s', ?_, hq'⟩
      rw [run_cons, hs₁]
      exact hrun

end termination

/-! ## Forward simulation -/

/-- A forward simulation from `impl` to `spec`: a state map that sends initial
    states to initial states and every step taken from a reachable state to a
    step or a stutter. -/
structure Simulation {State' : Type w} {Label' : Type x}
    (impl : System State Label) (spec : System State' Label') where
  /-- The abstraction map. -/
  abs : State → State'
  init : ∀ s, impl.init s → spec.init (abs s)
  step : ∀ s l s', impl.Reachable s → impl.step s l = some s' →
    (∃ l', spec.step (abs s) l' = some (abs s')) ∨ abs s' = abs s

/-- Reachable states map to reachable states, so every invariant of the
    abstract system holds of the image of the concrete one. -/
theorem Simulation.reachable {State' : Type w} {Label' : Type x}
    {impl : System State Label} {spec : System State' Label'}
    (sim : Simulation impl spec) {s : State} (h : impl.Reachable s) :
    spec.Reachable (sim.abs s) := by
  induction h with
  | init h => exact .init (sim.init _ h)
  | step hr hs ih =>
    rcases sim.step _ _ _ hr hs with ⟨l', hl'⟩ | heq
    · exact .step ih hl'
    · exact heq ▸ ih

end System

end Lts
