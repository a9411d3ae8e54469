import Mathlib.Data.List.Chain
import Mathlib.Data.List.Infix
import Mathlib.Tactic.Common

/-! # Lines with a Two-Symbol End

    A sequence cut at each `cr lf`, as `split("\r\n")` cuts a text.  The same
    cut serves text and bytes, so the alphabet and the two symbols are
    parameters.  What is complete in a prefix of a stream stays as it is when
    more arrives.
-/

namespace Lines

variable {α : Type u}

/-! ## Joining and scanning -/

section scan
variable (cr lf : α)

/-- The lines, each with its end. -/
def join (lines : List (List α)) : List α := lines.flatMap fun line => line ++ [cr, lf]

@[simp] theorem join_nil : join cr lf [] = [] := rfl

@[simp] theorem join_cons (line : List α) (lines : List (List α)) :
    join cr lf (line :: lines) = line ++ cr :: lf :: join cr lf lines := by
  simp [join]

@[simp] theorem join_append (lines lines' : List (List α)) :
    join cr lf (lines ++ lines') = join cr lf lines ++ join cr lf lines' := by
  simp [join]

/-- No end stands inside the line.  It may contain either symbol alone. -/
def Unbroken (line : List α) : Prop := line.IsChain fun x y => ¬ (x = cr ∧ y = lf)

variable {cr lf}

theorem unbroken_nil : Unbroken cr lf [] := .nil

theorem unbroken_of_not_mem {line : List α} (hline : lf ∉ line) : Unbroken cr lf line := by
  rw [Unbroken, List.isChain_iff_forall_rel_of_append_cons_cons]
  intro a b before after hsplit h
  exact hline (by simp [hsplit, h.2])

theorem Unbroken.of_infix {part line : List α} (h : Unbroken cr lf line) (hpart : part <:+: line) :
    Unbroken cr lf part :=
  List.IsChain.infix h hpart

/-- An empty line at the end of a block is unbroken. -/
theorem unbroken_block {lines : List (List α)} (hlines : ∀ line ∈ lines, Unbroken cr lf line) :
    ∀ line ∈ lines ++ [[]], Unbroken cr lf line := by
  intro line hmem
  rcases List.mem_append.mp hmem with hline | hblank
  · exact hlines line hline
  · rw [List.mem_singleton.mp hblank]
    exact unbroken_nil

/-- A symbol that belongs to no end keeps two lines apart. -/
theorem Unbroken.append_cons {a b : List α} {x : α} (ha : Unbroken cr lf a)
    (hb : Unbroken cr lf b) (hcr : x ≠ cr) (hlf : x ≠ lf) : Unbroken cr lf (a ++ x :: b) := by
  have htail : Unbroken cr lf (x :: b) := List.isChain_cons.mpr ⟨fun y _ h => hcr h.1, hb⟩
  refine List.IsChain.append ha htail ?_
  intro y _ z hz h
  obtain rfl : x = z := by simpa using hz
  exact hlf h.2

variable [DecidableEq α]

variable (cr lf) in
/-- The complete lines and the unfinished one, with `cur` read of the first. -/
def scan : List α → List α → List (List α) × List α
  | cur, x :: y :: rest =>
    if x = cr ∧ y = lf then (cur :: (scan [] rest).1, (scan [] rest).2)
    else scan (cur ++ [x]) (y :: rest)
  | cur, rest => ([], cur ++ rest)

variable (cr lf) in
/-- The lines that are complete. -/
def complete (s : List α) : List (List α) := (scan cr lf [] s).1

variable (cr lf) in
/-- All pieces: the last one has no end. -/
def split (s : List α) : List (List α) := complete cr lf s ++ [(scan cr lf [] s).2]

/-- The cut loses nothing. -/
theorem join_scan (cur s : List α) :
    join cr lf (scan cr lf cur s).1 ++ (scan cr lf cur s).2 = cur ++ s := by
  fun_induction scan cr lf cur s with
  | case1 cur x y rest hend ih =>
    obtain ⟨rfl, rfl⟩ := hend
    rw [join_cons, List.append_assoc, List.cons_append, List.cons_append, ih, List.nil_append]
  | case2 cur x y rest hnot ih =>
    rw [ih, List.append_assoc]
    rfl
  | case3 cur rest hshort => rfl

/-- An end is found wherever it stands. -/
theorem scan_cut (hne : cr ≠ lf) (cur s rest : List α) :
    scan cr lf cur (s ++ cr :: lf :: rest) =
      ((scan cr lf cur s).1 ++ (scan cr lf cur s).2 :: (scan cr lf [] rest).1,
        (scan cr lf [] rest).2) := by
  fun_induction scan cr lf cur s with
  | case1 cur x y more hend ih =>
    rw [List.cons_append, List.cons_append, scan, if_pos hend, ih]
    rfl
  | case2 cur x y more hnot ih =>
    rw [List.cons_append, List.cons_append, scan, if_neg hnot]
    exact ih
  | case3 cur more hshort =>
    -- at most one symbol is left before the end
    rcases more with _ | ⟨x, _ | ⟨y, more⟩⟩
    · simp [scan]
    · have hnot : ¬ (x = cr ∧ cr = lf) := fun h => hne h.2
      simp [scan, hnot]
    · exact absurd rfl (hshort x y more)

/-- Without an end nothing is complete. -/
theorem scan_unbroken {line : List α} (hline : Unbroken cr lf line) (cur : List α) :
    scan cr lf cur line = ([], cur ++ line) := by
  fun_induction scan cr lf cur line with
  | case1 cur x y rest hend ih => exact absurd hend (List.isChain_cons_cons.mp hline).1
  | case2 cur x y rest hnot ih =>
    rw [ih (List.isChain_cons_cons.mp hline).2, List.append_assoc]
    rfl
  | case3 cur rest hshort => rfl

/-- All that is cut is unbroken, if what was read before is. -/
theorem unbroken_scan (cur s : List α) :
    Unbroken cr lf (cur ++ s.take 1) →
      (∀ line ∈ (scan cr lf cur s).1, Unbroken cr lf line) ∧
        Unbroken cr lf (scan cr lf cur s).2 := by
  fun_induction scan cr lf cur s with
  | case1 cur x y rest hend ih =>
    intro hcur
    -- the line is over, and the next one begins with what comes after its end
    have hstart : Unbroken cr lf ([] ++ rest.take 1) := by
      cases rest with
      | nil => exact .nil
      | cons z rest => exact .singleton z
    obtain ⟨hlines, hopen⟩ := ih hstart
    refine ⟨List.forall_mem_cons.mpr ⟨?_, hlines⟩, hopen⟩
    exact hcur.of_infix (List.prefix_append cur _).isInfix
  | case2 cur x y rest hnot ih =>
    intro hcur
    apply ih
    -- `x` overlaps what was read and the pair that is no end
    have hpair : Unbroken cr lf [x, y] := List.isChain_cons_cons.mpr ⟨hnot, .singleton y⟩
    exact List.IsChain.append_overlap hcur hpair (by simp)
  | case3 cur rest hshort =>
    intro hcur
    refine ⟨fun line hline => absurd hline List.not_mem_nil, ?_⟩
    rcases rest with _ | ⟨x, _ | ⟨y, rest⟩⟩
    · exact hcur
    · exact hcur
    · exact absurd rfl (hshort x y rest)

theorem unbroken_of_mem_split {line s : List α} (h : line ∈ split cr lf s) :
    Unbroken cr lf line := by
  have hstart : Unbroken cr lf ([] ++ s.take 1) := by
    cases s with
    | nil => exact .nil
    | cons x s => exact .singleton x
  obtain ⟨hlines, hopen⟩ := unbroken_scan [] s hstart
  rcases List.mem_append.mp h with hmem | hmem
  · exact hlines line hmem
  · rw [List.mem_singleton.mp hmem]
    exact hopen

/-- Lines followed by something else. -/
theorem scan_join (hne : cr ≠ lf) {lines : List (List α)}
    (hlines : ∀ line ∈ lines, Unbroken cr lf line) (tail : List α) :
    scan cr lf [] (join cr lf lines ++ tail) =
      (lines ++ (scan cr lf [] tail).1, (scan cr lf [] tail).2) := by
  induction lines with
  | nil => rfl
  | cons line lines ih =>
    have hline := hlines line List.mem_cons_self
    rw [join_cons, List.append_assoc, List.cons_append, List.cons_append, scan_cut hne,
      scan_unbroken hline, ih fun line' hmem => hlines line' (List.mem_cons_of_mem _ hmem)]
    rfl

theorem complete_join (hne : cr ≠ lf) {lines : List (List α)}
    (hlines : ∀ line ∈ lines, Unbroken cr lf line) : complete cr lf (join cr lf lines) = lines := by
  have h := scan_join hne hlines []
  rw [List.append_nil] at h
  rw [complete, h]
  simp [scan]

/-- Splitting undoes joining with ends in between. -/
theorem split_join (hne : cr ≠ lf) {lines : List (List α)} {last : List α}
    (hlines : ∀ line ∈ lines, Unbroken cr lf line) (hlast : Unbroken cr lf last) :
    split cr lf (join cr lf lines ++ last) = lines ++ [last] := by
  rw [split, complete, scan_join hne hlines, scan_unbroken hlast]
  simp

/-- Joining undoes splitting, but for one end more. -/
theorem join_split (s : List α) : join cr lf (split cr lf s) = s ++ [cr, lf] := by
  have hall : join cr lf (scan cr lf [] s).1 ++ (scan cr lf [] s).2 = [] ++ s := join_scan [] s
  rw [split, complete, join_append, join_cons, join_nil, ← List.append_assoc, hall]
  rfl

/-- The text before the two ends of a block splits into the lines of the block. -/
theorem split_of_block (hne : cr ≠ lf) {lines : List (List α)} (hsome : lines ≠ [])
    (hlines : ∀ line ∈ lines, Unbroken cr lf line) :
    ∃ s, join cr lf (lines ++ [[]]) = s ++ [cr, lf, cr, lf] ∧ split cr lf s = lines := by
  obtain ⟨init, last, rfl⟩ := List.eq_nil_or_concat' lines |>.resolve_left hsome
  refine ⟨join cr lf init ++ last, by simp, split_join hne (fun line hmem => ?_) ?_⟩
  · exact hlines line (List.mem_append_left _ hmem)
  · exact hlines last (by simp)

/-- The pieces of a text are the lines of the block that it is the text of. -/
theorem join_split_block (s : List α) :
    join cr lf (split cr lf s ++ [[]]) = s ++ [cr, lf, cr, lf] := by
  rw [join_append, join_split]
  simp

/-- A block determines its lines. -/
theorem block_inj (hne : cr ≠ lf) {lines lines' : List (List α)}
    (hlines : ∀ line ∈ lines, Unbroken cr lf line) (hlines' : ∀ line ∈ lines', Unbroken cr lf line)
    (h : join cr lf (lines ++ [[]]) = join cr lf (lines' ++ [[]])) : lines = lines' := by
  have hleft := complete_join hne (unbroken_block hlines)
  have hright := complete_join hne (unbroken_block hlines')
  rw [h] at hleft
  exact (List.append_inj' (hleft.symm.trans hright) rfl).1

/-- **A block has one empty line**: where two ends meet, the block is over. -/
theorem blank_unique (hne : cr ≠ lf) {lines : List (List α)}
    (hlines : ∀ line ∈ lines, Unbroken cr lf line ∧ line ≠ []) {before after : List α}
    (h : join cr lf (lines ++ [[]]) = before ++ cr :: lf :: cr :: lf :: after) : after = [] := by
  have hunbroken := unbroken_block fun line hmem => (hlines line hmem).1
  have hjoin := scan_join hne hunbroken []
  rw [List.append_nil, h, scan_cut hne] at hjoin
  have hblank : scan cr lf [] (cr :: lf :: after) =
      ([] :: (scan cr lf [] after).1, (scan cr lf [] after).2) := scan_cut hne [] [] after
  rw [hblank] at hjoin
  obtain ⟨hcomplete, hopen⟩ := Prod.mk.inj hjoin
  simp only [scan, List.append_nil] at hcomplete hopen
  -- the first empty line is the last line
  have hlater : (scan cr lf [] after).1 = [] := by
    rcases List.eq_nil_or_concat (scan cr lf [] after).1 with hnil | ⟨init, last, hconcat⟩
    · exact hnil
    · rw [hconcat, List.concat_eq_append, ← List.cons_append, ← List.cons_append,
        ← List.append_assoc] at hcomplete
      have hinit := (List.append_inj' hcomplete rfl).1
      exact absurd rfl (hlines [] (hinit ▸ by simp)).2
  have hall : join cr lf (scan cr lf [] after).1 ++ (scan cr lf [] after).2 = [] ++ after :=
    join_scan [] after
  rw [hlater, hopen] at hall
  exact hall.symm

/-- **What is complete stays**: the complete lines of a prefix come first among
    those of the whole. -/
theorem scan_prefix {s t : List α} (h : s <+: t) (cur : List α) :
    (scan cr lf cur s).1 <+: (scan cr lf cur t).1 := by
  -- an end that stands in the prefix stands at the same place in the whole
  fun_induction scan cr lf cur s generalizing t with
  | case1 cur x y rest hend ih =>
    obtain ⟨more, rfl⟩ := h
    rw [List.cons_append, List.cons_append, scan, if_pos hend]
    exact (List.prefix_cons_inj _).mpr (ih (List.prefix_append rest more))
  | case2 cur x y rest hnot ih =>
    obtain ⟨more, rfl⟩ := h
    rw [List.cons_append, List.cons_append, scan, if_neg hnot]
    exact ih (List.prefix_append (y :: rest) more)
  | case3 cur rest hshort => exact List.nil_prefix

theorem complete_prefix {s t : List α} (h : s <+: t) : complete cr lf s <+: complete cr lf t :=
  scan_prefix h []

end scan

/-! ## Marks -/

/-- Two marks in one sequence: one stands before the other, or they are one. -/
theorem cut_cases {a b c d : List α} {x y : α} (h : a ++ x :: b = c ++ y :: d) :
    (∃ mid, a = c ++ y :: mid) ∨ (c = a ∧ y = x ∧ d = b) ∨
      ∃ mid, c = a ++ x :: mid ∧ b = mid ++ y :: d := by
  rcases List.append_eq_append_iff.mp h with ⟨mid, hc, hrest⟩ | ⟨mid, ha, hrest⟩
  · cases mid with
    | nil =>
      obtain ⟨hx, hb⟩ := List.cons.inj hrest
      exact .inr (.inl ⟨by rw [hc, List.append_nil], hx.symm, hb.symm⟩)
    | cons z mid =>
      obtain ⟨rfl, hb⟩ := List.cons.inj hrest
      exact .inr (.inr ⟨mid, hc, hb⟩)
  · cases mid with
    | nil =>
      obtain ⟨hy, hd⟩ := List.cons.inj hrest
      exact .inr (.inl ⟨by rw [ha, List.append_nil], hy, hd⟩)
    | cons z mid =>
      obtain ⟨rfl, -⟩ := List.cons.inj hrest
      exact .inl ⟨mid, ha⟩

/-- Two marks of which neither stands before the other are one. -/
theorem eq_of_cut {a b c d : List α} {x y : α} (h : a ++ x :: b = c ++ y :: d)
    (hx : x ∉ c) (hy : y ∉ a) : a = c ∧ x = y := by
  rcases cut_cases h with ⟨mid, rfl⟩ | ⟨hac, hxy, -⟩ | ⟨mid, rfl, -⟩
  · exact absurd (by simp) hy
  · exact ⟨hac.symm, hxy.symm⟩
  · exact absurd (by simp) hx

/-! ## Blocks of lines -/

/-- The first line of each block; an empty line ends a block.  The flag says
    that a block is about to start. -/
def starts : Bool → List (List α) → List (List α)
  | _, [] => []
  | true, line :: lines =>
    if line = [] then starts true lines else line :: starts false lines
  | false, line :: lines => starts (line = []) lines

theorem starts_prefix {lines lines' : List (List α)} (h : lines <+: lines') (fresh : Bool) :
    starts fresh lines <+: starts fresh lines' := by
  induction lines generalizing lines' fresh with
  | nil => exact List.nil_prefix
  | cons line lines ih =>
    obtain ⟨more, rfl⟩ := h
    have hrest : lines <+: lines ++ more := List.prefix_append _ _
    cases fresh with
    | true =>
      rw [List.cons_append, starts, starts]
      split
      · exact ih hrest true
      · exact (List.prefix_cons_inj _).mpr (ih hrest false)
    | false =>
      rw [List.cons_append, starts, starts]
      exact ih hrest _

/-- The rest of a block has no first lines. -/
theorem starts_body {lines : List (List α)} (hlines : ∀ line ∈ lines, line ≠ [])
    (rest : List (List α)) : starts false (lines ++ [] :: rest) = starts true rest := by
  induction lines with
  | nil => simp [starts]
  | cons line lines ih =>
    have hline := hlines line List.mem_cons_self
    rw [List.cons_append, starts, decide_eq_false hline]
    exact ih fun line' hmem => hlines line' (List.mem_cons_of_mem _ hmem)

/-- A block has one first line. -/
theorem starts_block {first : List α} {lines : List (List α)} (hfirst : first ≠ [])
    (hlines : ∀ line ∈ lines, line ≠ []) (rest : List (List α)) :
    starts true (first :: lines ++ [] :: rest) = first :: starts true rest := by
  rw [List.cons_append, starts, if_neg hfirst, starts_body hlines]

end Lines
