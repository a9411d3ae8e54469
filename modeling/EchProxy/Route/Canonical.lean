import EchProxy.Route.Coverage

/-! # Merged Ranges as a Normal Form (`merge_u32_ranges`, `merge_u128_ranges`)

    Merging brings the ranges into the one list of sorted ranges with gaps
    between them that has the same addresses.  So neither the order of the
    ranges, nor how the sort breaks ties, nor the width of the addresses shows
    in the result, and a set of tables is a set of addresses and nothing else.
-/

namespace EchProxy

open Intervals

variable {w : Nat}

/-- The next address, in numbers: at the top of the width there is none. -/
theorem saturatingAddOne_lt_iff {x y : Word w} :
    saturatingAddOne x < y ↔ x.val + 1 < y.val := by
  have hy := y.isLt
  rw [saturatingAddOne]
  by_cases htop : x.val + 1 < 2 ^ w
  · rw [dif_pos htop]
    exact Iff.rfl
  · rw [dif_neg htop, Fin.lt_def]
    omega

theorem lt_saturatingAddOne {x y : Word w} (h : x < y) : x < saturatingAddOne x := by
  have hy := y.isLt
  rw [Fin.lt_def] at h
  rw [saturatingAddOne, dif_pos (by omega), Fin.lt_def]
  exact Nat.lt_succ_self _

/-- Sorted ranges, none of them empty, and between two neighbours there is a gap,
    by the numbers of the addresses. -/
structure NormalForm (ranges : List (Word w × Word w)) : Prop where
  valid : ∀ r ∈ ranges, r.1 ≤ r.2
  sorted : ranges.Pairwise fun a b => a.1 < b.1
  gaps : ranges.Pairwise fun a b => a.2.val + 1 < b.1.val

theorem normalForm_iff {ranges : List (Word w × Word w)} :
    NormalForm ranges ↔ Normal saturatingAddOne ranges := by
  constructor
  · intro h
    refine ⟨h.valid, h.gaps.imp ?_⟩
    intro a b hgap
    exact saturatingAddOne_lt_iff.mpr hgap
  · intro h
    refine ⟨h.valid, ?_, h.gaps.imp ?_⟩
    · apply h.gaps.imp_of_mem
      intro a b ha _ hgap
      exact lt_of_le_of_lt (le_trans (h.valid a ha) (le_saturatingAddOne a.2)) hgap
    · intro a b hgap
      exact saturatingAddOne_lt_iff.mp hgap

theorem NormalForm.nil : NormalForm ([] : List (Word w × Word w)) where
  valid := fun _ hr => (by cases hr)
  sorted := .nil
  gaps := .nil

theorem NormalForm.one {r : Word w × Word w} (h : r.1 ≤ r.2) : NormalForm [r] where
  valid := fun _ hr => (List.mem_singleton.mp hr) ▸ h
  sorted := List.pairwise_singleton _ _
  gaps := List.pairwise_singleton _ _

/-- **Two normal forms of one set are the same list.** -/
theorem NormalForm.unique {ranges ranges' : List (Word w × Word w)} (h : NormalForm ranges)
    (h' : NormalForm ranges') (hsame : ∀ x, Covers ranges x ↔ Covers ranges' x) :
    ranges = ranges' := by
  have hnext : ∀ a b : Word w, a < b → saturatingAddOne a ≤ b := fun _ _ => saturatingAddOne_le
  have hlt : ∀ a b : Word w, a < b → a < saturatingAddOne a := fun _ _ => lt_saturatingAddOne
  exact (normalForm_iff.mp h).unique le_saturatingAddOne hnext hlt (normalForm_iff.mp h') hsame

/-! ## The merge of one width -/

/-- What a merge makes of valid ranges, whatever sort it uses. -/
structure Canonical (w : Nat)
    (merge : SortByStart w → List (Word w × Word w) → List (Word w × Word w)) : Prop where
  normal : ∀ lib ranges, Valid ranges → NormalForm (merge lib ranges)
  covers : ∀ lib ranges, Valid ranges → ∀ x, Covers (merge lib ranges) x ↔ Covers ranges x
  /-- There is no other normal form. -/
  unique : ∀ lib ranges, Valid ranges → ∀ form, NormalForm form →
    (∀ x, Covers form x ↔ Covers ranges x) → form = merge lib ranges
  /-- Only the set counts. -/
  same : ∀ lib lib' ranges ranges', Valid ranges → Valid ranges' →
    (∀ x, Covers ranges x ↔ Covers ranges' x) → merge lib ranges = merge lib' ranges'
  idempotent : ∀ lib lib' ranges, Valid ranges → merge lib' (merge lib ranges) = merge lib ranges

theorem mergeRanges_canonical : Canonical w mergeRanges := by
  have hnormal : ∀ (lib : SortByStart w) ranges, Valid ranges →
      NormalForm (mergeRanges lib ranges) := by
    intro lib ranges hvalid
    exact normalForm_iff.mpr (mergeRanges_spec lib hvalid).1
  have hcovers : ∀ (lib : SortByStart w) ranges, Valid ranges →
      ∀ x, Covers (mergeRanges lib ranges) x ↔ Covers ranges x := by
    intro lib ranges hvalid
    exact (mergeRanges_spec lib hvalid).2
  have hunique : ∀ (lib : SortByStart w) ranges, Valid ranges → ∀ form, NormalForm form →
      (∀ x, Covers form x ↔ Covers ranges x) → form = mergeRanges lib ranges := by
    intro lib ranges hvalid form hform hsame
    apply hform.unique (hnormal lib ranges hvalid)
    intro x
    rw [hsame, hcovers lib ranges hvalid]
  refine ⟨hnormal, hcovers, hunique, ?_, ?_⟩
  · intro lib lib' ranges ranges' hvalid hvalid' hsame
    apply hunique lib' ranges' hvalid' _ (hnormal lib ranges hvalid)
    intro x
    rw [hcovers lib ranges hvalid, hsame]
  · intro lib lib' ranges hvalid
    have hmerged := hnormal lib ranges hvalid
    exact (hunique lib' _ hmerged.valid _ hmerged fun _ => Iff.rfl).symm

/-! ## Two widths -/

/-- `u128::from` of a `u32`. -/
def widen (x : Word 32) : Word 128 := ⟨x.val, Nat.lt_trans x.isLt (by decide)⟩

def widenRanges (ranges : List (Word 32 × Word 32)) : List (Word 128 × Word 128) :=
  ranges.map fun r => (widen r.1, widen r.2)

theorem widen_le {x y : Word 32} : widen x ≤ widen y ↔ x ≤ y :=
  Iff.rfl

/-- Wide ranges hold the wide forms of what the narrow ones hold. -/
theorem covers_widenRanges {ranges : List (Word 32 × Word 32)} {y : Word 128} :
    Covers (widenRanges ranges) y ↔ ∃ x, widen x = y ∧ Covers ranges x := by
  constructor
  · intro ⟨r', hr', hlow, hhigh⟩
    obtain ⟨r, hr, rfl⟩ := List.mem_map.mp hr'
    have hy : y.val < 2 ^ 32 := Nat.lt_of_le_of_lt hhigh r.2.isLt
    exact ⟨⟨y.val, hy⟩, rfl, r, hr, hlow, hhigh⟩
  · intro ⟨x, hx, r, hr, hlow, hhigh⟩
    rw [← hx]
    exact ⟨_, List.mem_map_of_mem hr, hlow, hhigh⟩

theorem widenRanges_valid {ranges : List (Word 32 × Word 32)} (h : Valid ranges) :
    Valid (widenRanges ranges) := by
  intro r' hr'
  obtain ⟨r, hr, rfl⟩ := List.mem_map.mp hr'
  exact widen_le.mpr (h r hr)

theorem NormalForm.widen {ranges : List (Word 32 × Word 32)} (h : NormalForm ranges) :
    NormalForm (widenRanges ranges) where
  valid := widenRanges_valid h.valid
  sorted := List.pairwise_map.mpr h.sorted
  gaps := List.pairwise_map.mpr h.gaps

/-! ## The main result -/

/-- **Merging yields the one normal form of an address set**, in both widths, and
    the same one in both. -/
theorem merge_canonical :
    Canonical 32 mergeU32Ranges ∧ Canonical 128 mergeU128Ranges ∧
      ∀ (lib4 : SortByStart 32) (lib6 : SortByStart 128) (ranges : List (Word 32 × Word 32)),
        Valid ranges →
          mergeU128Ranges lib6 (widenRanges ranges) =
            widenRanges (mergeU32Ranges lib4 ranges) := by
  refine ⟨mergeRanges_canonical, mergeRanges_canonical, ?_⟩
  intro lib4 lib6 ranges hvalid
  have hmerged := mergeRanges_canonical.normal lib4 ranges hvalid
  have hcovers := mergeRanges_canonical.covers lib4 ranges hvalid
  -- what is merged narrow and widened then is a normal form of the wide set
  refine (mergeRanges_canonical.unique lib6 _ (widenRanges_valid hvalid) _ hmerged.widen ?_).symm
  intro y
  rw [covers_widenRanges, covers_widenRanges]
  constructor
  · intro ⟨x, hx, hin⟩
    exact ⟨x, hx, (hcovers x).mp hin⟩
  · intro ⟨x, hx, hin⟩
    exact ⟨x, hx, (hcovers x).mpr hin⟩

theorem valid_pair {r t : Word w × Word w} (hr : r.1.val ≤ r.2.val) (ht : t.1.val ≤ t.2.val) :
    Valid [r, t] := by
  intro s hs
  rcases List.mem_cons.mp hs with rfl | hs
  · exact hr
  · rw [List.mem_singleton.mp hs]
    exact ht

/-- Two lists of one set, with the highest address in it: overlapping and adjacent
    ranges. -/
theorem merge_canonical_example :
    mergeU32Ranges (.insertion 32) [(7, 4294967295), (4, 8)] =
      mergeU32Ranges (.insertion 32) [(4, 5), (6, 4294967295)] := by
  obtain ⟨h32, -, -⟩ := merge_canonical
  apply h32.same
  · exact valid_pair (show 7 ≤ 4294967295 by omega) (show 4 ≤ 8 by omega)
  · exact valid_pair (show 4 ≤ 5 by omega) (show 6 ≤ 4294967295 by omega)
  · intro x
    have hx := x.isLt
    simp only [covers_cons, covers_nil, or_false]
    change (7 ≤ x.val ∧ x.val ≤ 4294967295) ∨ (4 ≤ x.val ∧ x.val ≤ 8) ↔
      (4 ≤ x.val ∧ x.val ≤ 5) ∨ (6 ≤ x.val ∧ x.val ≤ 4294967295)
    omega

/-! ## What a file says -/

deriving instance DecidableEq for ChinaIpSet

namespace TableFile

/-- The file can be read, and every line of it. -/
def ReadsWell (lib : TableLib) (file : TableFile) : Prop :=
  ∃ raw, file.content = some raw ∧ ∀ line ∈ Str.lines raw, ¬ Malformed lib line

/-- A line of the file covers the address. -/
def Covers (lib : TableLib) (file : TableFile) (ip : IpAddr) : Prop :=
  ∃ raw, file.content = some raw ∧ ∃ line ∈ Str.lines raw, LineCovers lib line ip

end TableFile

section loading
variable {lib lib' : TableLib} {set set' : ChinaIpSet} {file4 file6 file4' file6' : TableFile}

/-- A file that is read reads well. -/
theorem readsWell_of_readIpTable {file : TableFile} (set set' : ChinaIpSet)
    (h : readIpTable lib file set = .ok set') : file.ReadsWell lib := by
  unfold readIpTable at h
  split at h
  · cases h
  · next raw hcontent =>
    refine ⟨raw, hcontent, fun line hmem hbad => ?_⟩
    obtain ⟨err, herr⟩ := readLines_malformed file.path set ⟨line, hmem, hbad⟩ 0
    rw [h] at herr
    cases herr

/-- What a load that succeeds makes of its files: normal forms, of the addresses
    that are covered. -/
theorem load_normal (h4 : file4.ReadsWell lib) (h6 : file6.ReadsWell lib) :
    ∃ set, ChinaIpSet.load lib file4 file6 = .ok set ∧ NormalForm set.v4 ∧ NormalForm set.v6 ∧
      ∀ ip, set.Covers ip ↔ file4.Covers lib ip ∨ file6.Covers lib ip := by
  obtain ⟨path4, content4⟩ := file4
  obtain ⟨path6, content6⟩ := file6
  obtain ⟨raw4, rfl, hgood4⟩ := h4
  obtain ⟨raw6, rfl, hgood6⟩ := h6
  obtain ⟨set, hload, hnormal4, hnormal6, hcovers⟩ :=
    load_merged path4 path6 (List.forall_mem_append.mpr ⟨hgood4, hgood6⟩)
  refine ⟨set, hload, normalForm_iff.mpr hnormal4, normalForm_iff.mpr hnormal6, fun ip => ?_⟩
  rw [hcovers]
  simp [TableFile.Covers, or_and_right, exists_or]

/-- Sets in normal form that cover the same addresses are the same set. -/
theorem ChinaIpSet.eq_of_covers (h4 : NormalForm set.v4) (h6 : NormalForm set.v6)
    (h4' : NormalForm set'.v4) (h6' : NormalForm set'.v6)
    (hsame : ∀ ip, set.Covers ip ↔ set'.Covers ip) : set = set' := by
  obtain ⟨v4, v6⟩ := set
  obtain ⟨v4', v6'⟩ := set'
  -- every number is the number of an address
  obtain rfl : v4 = v4' := h4.unique h4' fun x => hsame (.v4 ⟨.ofFin x⟩)
  obtain rfl : v6 = v6' := h6.unique h6' fun x => hsame (.v6 ⟨.ofFin x⟩)
  rfl

/-- Files that are loaded read well. -/
theorem readsWell_of_load (h : ChinaIpSet.load lib file4 file6 = .ok set) :
    file4.ReadsWell lib ∧ file6.ReadsWell lib := by
  rw [ChinaIpSet.load, Result.bind_eq_ok] at h
  obtain ⟨set4, hread4, h⟩ := h
  rw [Result.bind_eq_ok] at h
  obtain ⟨set6, hread6, -⟩ := h
  exact ⟨readsWell_of_readIpTable _ _ hread4, readsWell_of_readIpTable _ _ hread6⟩

/-- What is loaded is in normal form. -/
theorem normal_of_load (h : ChinaIpSet.load lib file4 file6 = .ok set) :
    NormalForm set.v4 ∧ NormalForm set.v6 := by
  obtain ⟨h4, h6⟩ := readsWell_of_load h
  obtain ⟨set', hload, hv4, hv6, -⟩ := load_normal h4 h6
  rw [h] at hload
  obtain rfl := Except.ok.inj hload
  exact ⟨hv4, hv6⟩

/-- **Files that can be read make the same set exactly when they cover the same
    addresses.** -/
theorem load_eq_iff (h4 : file4.ReadsWell lib) (h6 : file6.ReadsWell lib)
    (h4' : file4'.ReadsWell lib') (h6' : file6'.ReadsWell lib') :
    ChinaIpSet.load lib file4 file6 = ChinaIpSet.load lib' file4' file6' ↔
      ∀ ip, (file4.Covers lib ip ∨ file6.Covers lib ip) ↔
        (file4'.Covers lib' ip ∨ file6'.Covers lib' ip) := by
  obtain ⟨set, hload, hv4, hv6, hcovers⟩ := load_normal h4 h6
  obtain ⟨set', hload', hv4', hv6', hcovers'⟩ := load_normal h4' h6'
  rw [hload, hload', Except.ok.injEq]
  constructor
  · rintro rfl ip
    rw [← hcovers, ← hcovers']
  · intro hsame
    apply ChinaIpSet.eq_of_covers hv4 hv6 hv4' hv6'
    intro ip
    rw [hcovers, hcovers', hsame]

end loading

/-! ## The set of a client -/

/-- A `ChinaIpSet` as the rest of the program has it: nothing but `load` makes one,
    so its ranges are merged. -/
structure MergedIpSet extends ChinaIpSet where
  v4_normal : NormalForm v4
  v6_normal : NormalForm v6

namespace MergedIpSet

theorem nil_v4 : NormalForm ([] : List (Word 32 × Word 32)) := .nil

theorem nil_v6 : NormalForm ([] : List (Word 128 × Word 128)) := .nil

/-- The set of empty tables. -/
def empty : MergedIpSet := ⟨⟨[], []⟩, nil_v4, nil_v6⟩

/-- The set of a load. -/
def ofLoad (loaded : Except TableError ChinaIpSet)
    (h : ∀ set, loaded = .ok set → NormalForm set.v4 ∧ NormalForm set.v6) :
    Except TableError MergedIpSet :=
  match loaded, h with
  | .ok set, h => .ok ⟨set, (h set rfl).1, (h set rfl).2⟩
  | .error err, _ => .error err

/-- `ChinaIpSet::load`. -/
def load (lib : TableLib) (ipv4Cidrs ipv6Cidrs : TableFile) : Except TableError MergedIpSet :=
  ofLoad (ChinaIpSet.load lib ipv4Cidrs ipv6Cidrs) fun _ => normal_of_load

/-- The set is the one of the load. -/
theorem load_congr {lib lib' : TableLib} {file4 file6 file4' file6' : TableFile}
    (h : ChinaIpSet.load lib file4 file6 = ChinaIpSet.load lib' file4' file6') :
    load lib file4 file6 = load lib' file4' file6' := by
  simp only [load, h]

/-- `contains` answers whether the ranges of the set cover the address. -/
theorem contains_covers (set : MergedIpSet) (ip : IpAddr) :
    ∃ b, set.contains ip = .ok b ∧ (b = true ↔ set.Covers ip) :=
  contains_spec set.toChinaIpSet (normalForm_iff.mp set.v4_normal)
    (normalForm_iff.mp set.v6_normal) ip

end MergedIpSet

end EchProxy
