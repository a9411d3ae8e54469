import EchProxy.Framework.Search
import Mathlib.Order.MinMax

/-! # Sets as Sorted Intervals

    A set given by closed intervals, brought into normal form by a greedy
    merge of the intervals sorted by their lower ends: valid intervals, none
    of which touches the next.  `next` is the successor the merge uses to see
    whether two intervals touch; it may saturate at the top of the type.
-/

namespace Intervals

variable {α : Type u} [LinearOrder α]

/-- Some interval of the list holds `x`. -/
def Covers (rs : List (α × α)) (x : α) : Prop :=
  ∃ r ∈ rs, r.1 ≤ x ∧ x ≤ r.2

@[simp] theorem covers_nil (x : α) : ¬ Covers [] x := by
  simp [Covers]

@[simp] theorem covers_cons (r : α × α) (rs : List (α × α)) (x : α) :
    Covers (r :: rs) x ↔ (r.1 ≤ x ∧ x ≤ r.2) ∨ Covers rs x := by
  simp [Covers]

@[simp] theorem covers_append (rs ts : List (α × α)) (x : α) :
    Covers (rs ++ ts) x ↔ Covers rs x ∨ Covers ts x := by
  simp [Covers, or_and_right, exists_or]

theorem covers_perm {rs ts : List (α × α)} (h : rs.Perm ts) (x : α) :
    Covers rs x ↔ Covers ts x := by
  simp [Covers, h.mem_iff]

/-- No interval is empty. -/
def Valid (rs : List (α × α)) : Prop :=
  ∀ r ∈ rs, r.1 ≤ r.2

/-- Normal form: no interval is empty, and each ends with a gap before the
    following ones. -/
structure Normal (next : α → α) (rs : List (α × α)) : Prop where
  valid : Valid rs
  gaps : rs.Pairwise fun a b => next a.2 < b.1

/-! ## Merging -/

/-- The greedy merge of intervals sorted by lower end; `cur` is the interval
    under construction. -/
def mergeLoop (next : α → α) (merged : List (α × α)) (cur : α × α) :
    List (α × α) → List (α × α)
  | [] => merged ++ [cur]
  | r :: rs =>
    if r.1 ≤ next cur.2 then mergeLoop next merged (cur.1, max cur.2 r.2) rs
    else mergeLoop next (merged ++ [cur]) r rs

section merging
variable {next : α → α} (hle : ∀ a, a ≤ next a) (hnext : ∀ a b, a < b → next a ≤ b)

include hnext in
/-- Two intervals of which the second starts in the first or right after it are
    one. -/
theorem join_iff {cur r : α × α} (hstart : cur.1 ≤ r.1)
    (htouch : r.1 ≤ next cur.2) (x : α) :
    (cur.1 ≤ x ∧ x ≤ max cur.2 r.2) ↔ (cur.1 ≤ x ∧ x ≤ cur.2) ∨ (r.1 ≤ x ∧ x ≤ r.2) := by
  constructor
  · intro ⟨hlow, hhigh⟩
    by_cases hx : x ≤ cur.2
    · exact .inl ⟨hlow, hx⟩
    · have hgt := not_le.mp hx
      refine .inr ⟨le_trans htouch (hnext _ _ hgt), ?_⟩
      rcases le_max_iff.mp hhigh with hle | hle
      · exact absurd hle hx
      · exact hle
  · rintro (⟨hlow, hhigh⟩ | ⟨hlow, hhigh⟩)
    · exact ⟨hlow, le_trans hhigh (le_max_left _ _)⟩
    · exact ⟨le_trans hstart hlow, le_trans hhigh (le_max_right _ _)⟩

include hnext in
/-- **The merge**: what it adds to the merged list is in normal form, starts
    where `cur` does, and covers what `cur` and the rest cover. -/
theorem mergeLoop_spec (merged : List (α × α)) (cur : α × α) (rs : List (α × α))
    (hvalid : Valid (cur :: rs)) (hsorted : (cur :: rs).Pairwise fun a b => a.1 ≤ b.1) :
    ∃ out, mergeLoop next merged cur rs = merged ++ out ∧ Normal next out ∧
      (∀ r ∈ out, cur.1 ≤ r.1) ∧ ∀ x, Covers out x ↔ Covers (cur :: rs) x := by
  -- on what is left to merge; `cur` starts at or before all of it
  induction rs generalizing merged cur with
  | nil =>
    refine ⟨[cur], rfl, ⟨hvalid, List.pairwise_singleton _ _⟩, ?_, fun x => Iff.rfl⟩
    intro r hr
    rw [List.mem_singleton.mp hr]
  | cons r rs ih =>
    have hcur : cur.1 ≤ cur.2 := hvalid cur List.mem_cons_self
    have hr : r.1 ≤ r.2 := hvalid r (List.mem_cons_of_mem _ List.mem_cons_self)
    have hrest : Valid rs := fun t ht => hvalid t (by simp [ht])
    obtain ⟨hfirst, hsorted'⟩ := List.pairwise_cons.mp hsorted
    obtain ⟨hsecond, hsorted''⟩ := List.pairwise_cons.mp hsorted'
    have hstart : cur.1 ≤ r.1 := hfirst r List.mem_cons_self
    rw [mergeLoop]
    -- a range that touches grows `cur`, any other closes it
    by_cases htouch : r.1 ≤ next cur.2
    · rw [if_pos htouch]
      obtain ⟨out, hout, hnormal, hlow, hcovers⟩ := ih merged (cur.1, max cur.2 r.2)
        (by
          intro t ht
          rcases List.mem_cons.mp ht with rfl | ht
          · exact le_trans hcur (le_max_left _ _)
          · exact hrest t ht)
        (List.pairwise_cons.mpr
          ⟨fun t ht => hfirst t (List.mem_cons_of_mem _ ht), hsorted''⟩)
      refine ⟨out, hout, hnormal, hlow, fun x => ?_⟩
      rw [hcovers, covers_cons, covers_cons, covers_cons,
        join_iff hnext hstart htouch, or_assoc]
    · rw [if_neg htouch]
      obtain ⟨out, hout, hnormal, hlow, hcovers⟩ := ih (merged ++ [cur]) r
        (by
          intro t ht
          rcases List.mem_cons.mp ht with rfl | ht
          · exact hr
          · exact hrest t ht)
        hsorted'
      refine ⟨cur :: out, ?_, ⟨?_, ?_⟩, ?_, fun x => ?_⟩
      · rw [hout, List.append_assoc]
        rfl
      · intro t ht
        rcases List.mem_cons.mp ht with rfl | ht
        · exact hcur
        · exact hnormal.valid t ht
      · refine List.pairwise_cons.mpr ⟨fun t ht => ?_, hnormal.gaps⟩
        exact lt_of_lt_of_le (not_le.mp htouch) (hlow t ht)
      · intro t ht
        rcases List.mem_cons.mp ht with rfl | ht
        · exact le_refl _
        · exact le_trans hstart (hlow t ht)
      · rw [covers_cons, hcovers, covers_cons cur]

include hle in
/-- In normal form the lower ends are sorted. -/
theorem Normal.sorted {rs : List (α × α)} (h : Normal next rs) :
    rs.Pairwise fun a b => a.1 ≤ b.1 := by
  refine h.gaps.imp_of_mem fun {a b} ha _ hgap => ?_
  exact le_trans (h.valid a ha) (le_trans (hle _) hgap.le)

end merging

/-! ## Uniqueness -/

section uniqueness
variable {next : α → α} {r t : α × α} {rs ts : List (α × α)}

theorem Normal.tail (h : Normal next (r :: rs)) : Normal next rs where
  valid := fun s hs => h.valid s (List.mem_cons_of_mem _ hs)
  gaps := (List.pairwise_cons.mp h.gaps).2

/-- What the intervals after the first cover lies beyond a gap. -/
theorem Normal.beyond (h : Normal next (r :: rs)) {x : α} (hx : Covers rs x) : next r.2 < x := by
  obtain ⟨s, hs, hlow, -⟩ := hx
  have hgap := (List.pairwise_cons.mp h.gaps).1 s hs
  exact lt_of_lt_of_le hgap hlow

variable (hle : ∀ a, a ≤ next a) (hnext : ∀ a b, a < b → next a ≤ b)
  (hlt : ∀ a b, a < b → a < next a)

include hle in
theorem Normal.start_le (h : Normal next (r :: rs)) {x : α} (hx : Covers (r :: rs) x) :
    r.1 ≤ x := by
  rcases (covers_cons r rs x).mp hx with ⟨hlow, -⟩ | hrest
  · exact hlow
  · have hvalid := h.valid r List.mem_cons_self
    exact le_trans hvalid (le_trans (hle r.2) (h.beyond hrest).le)

include hle hnext hlt in
/-- The first interval goes at least as far as that of a normal form with less:
    else the element after it would lie in the gap. -/
theorem Normal.stop_le (hr : Normal next (r :: rs))
    (hsub : ∀ x, Covers (t :: ts) x → Covers (r :: rs) x) (hstart : t.1 ≤ r.1) : t.2 ≤ r.2 := by
  by_contra hnot
  have hpast : r.2 < t.2 := not_le.mp hnot
  have habove : r.2 < next r.2 := hlt _ _ hpast
  have hvalid := hr.valid r List.mem_cons_self
  have hlow : t.1 ≤ next r.2 := le_trans hstart (le_trans hvalid (hle r.2))
  have hin : Covers (t :: ts) (next r.2) :=
    (covers_cons t ts _).mpr (.inl ⟨hlow, hnext _ _ hpast⟩)
  rcases (covers_cons r rs _).mp (hsub _ hin) with ⟨-, hhigh⟩ | hrest
  · exact absurd hhigh (not_le.mpr habove)
  · exact absurd (hr.beyond hrest) (lt_irrefl _)

include hle in
/-- Below a normal form's first interval and in its gap nothing is covered, so the
    rest is what is covered beyond. -/
theorem Normal.covers_tail (h : Normal next (r :: rs)) (x : α) :
    Covers rs x ↔ Covers (r :: rs) x ∧ r.2 < x := by
  constructor
  · intro hx
    exact ⟨(covers_cons r rs x).mpr (.inr hx), lt_of_le_of_lt (hle r.2) (h.beyond hx)⟩
  · intro ⟨hx, hpast⟩
    rcases (covers_cons r rs x).mp hx with ⟨-, hhigh⟩ | hrest
    · exact absurd hhigh (not_le.mpr hpast)
    · exact hrest

include hle hnext hlt in
/-- **A set has one normal form.** -/
theorem Normal.unique (hrs : Normal next rs) (hts : Normal next ts)
    (h : ∀ x, Covers rs x ↔ Covers ts x) : rs = ts := by
  induction rs generalizing ts with
  | nil =>
    cases ts with
    | nil => rfl
    | cons t ts =>
      have hcovered : Covers (t :: ts) t.1 :=
        (covers_cons t ts _).mpr (.inl ⟨le_refl _, hts.valid t List.mem_cons_self⟩)
      exact absurd ((h t.1).mpr hcovered) (covers_nil _)
  | cons r rs ih =>
    have hrstart : Covers (r :: rs) r.1 :=
      (covers_cons r rs _).mpr (.inl ⟨le_refl _, hrs.valid r List.mem_cons_self⟩)
    cases ts with
    | nil => exact absurd ((h r.1).mp hrstart) (covers_nil _)
    | cons t ts =>
      have htstart : Covers (t :: ts) t.1 :=
        (covers_cons t ts _).mpr (.inl ⟨le_refl _, hts.valid t List.mem_cons_self⟩)
      -- both start at the least element, and end before the first gap
      have hlow : r.1 ≤ t.1 := hrs.start_le hle ((h t.1).mpr htstart)
      have hlow' : t.1 ≤ r.1 := hts.start_le hle ((h r.1).mp hrstart)
      have hhigh : t.2 ≤ r.2 :=
        hrs.stop_le hle hnext hlt (fun x => (h x).mpr) hlow'
      have hhigh' : r.2 ≤ t.2 :=
        hts.stop_le hle hnext hlt (fun x => (h x).mp) hlow
      have hfirst : r = t := Prod.ext (le_antisymm hlow hlow') (le_antisymm hhigh' hhigh)
      subst hfirst
      -- without their common first range they still cover the same
      have hrest : rs = ts := by
        apply ih hrs.tail hts.tail
        intro x
        rw [hrs.covers_tail hle, hts.covers_tail hle, h]
      rw [hrest]

end uniqueness

end Intervals
