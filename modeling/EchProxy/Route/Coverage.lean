import EchProxy.Route.ChinaIp

/-! # What the China IP Set Contains

    A line of a table means an entry, and an entry covers addresses of its own
    family.  The set covers what its lines cover: reading adds a range with
    the same addresses for each line, merging keeps the covered addresses, and
    the lookup decides membership of merged ranges.
-/

namespace EchProxy

open Checked Intervals Result

/-! ## The meaning of a line -/

/-- What a line stands for. -/
inductive Entry where
  | net (net : IpNet)
  | addr (ip : IpAddr)
  | range (start stop : IpAddr)
  deriving DecidableEq

/-- Nothing but white space, or a comment. -/
def Ignored (line : Text) : Prop :=
  Str.trim line = [] ∨ Str.startsWith ['#'] (Str.trim line) = true

instance (line : Text) : Decidable (Ignored line) :=
  inferInstanceAs (Decidable (_ ∨ _))

/-- The entry on a line: a network or else an address, or two addresses. -/
def entryOf (lib : TableLib) (line : Text) : Option Entry :=
  match Str.splitWhitespace (Str.trim line) with
  | [single] => ((lib.parseNet single).map .net).or ((lib.parseIp single).map .addr)
  | [start, stop] => do return .range (← lib.parseIp start) (← lib.parseIp stop)
  | _ => none

/-- A range has one family, and does not end before it starts. -/
def Entry.WellFormed : Entry → Prop
  | .net _ | .addr _ => True
  | .range (.v4 start) (.v4 stop) => start.bits ≤ stop.bits
  | .range (.v6 start) (.v6 stop) => start.bits ≤ stop.bits
  | .range _ _ => False

/-- A line that is not ignored and has no well-formed entry. -/
def Malformed (lib : TableLib) (line : Text) : Prop :=
  ¬ Ignored line ∧ ∀ e, entryOf lib line = some e → ¬ e.WellFormed

/-- The entry covers the address: it lies in the block, it is the address, or it
    lies between the ends. -/
def Entry.Covers : Entry → IpAddr → Prop
  | .net (.v4 block), .v4 ip => block.Mem ip.bits
  | .net (.v6 block), .v6 ip => block.Mem ip.bits
  | .addr self, ip => self = ip
  | .range (.v4 start) (.v4 stop), .v4 ip => start.bits ≤ ip.bits ∧ ip.bits ≤ stop.bits
  | .range (.v6 start) (.v6 stop), .v6 ip => start.bits ≤ ip.bits ∧ ip.bits ≤ stop.bits
  | _, _ => False

/-- The line covers the address. -/
def LineCovers (lib : TableLib) (line : Text) (ip : IpAddr) : Prop :=
  ¬ Ignored line ∧ ∃ e, entryOf lib line = some e ∧ e.Covers ip

/-! ## Reading keeps the meaning -/

namespace ChinaIpSet

/-- The ranges of the address's family cover it. -/
def Covers (set : ChinaIpSet) : IpAddr → Prop
  | .v4 ip => Intervals.Covers set.v4 ip.toWord
  | .v6 ip => Intervals.Covers set.v6 ip.toWord

/-- All ranges are valid. -/
def Valid (set : ChinaIpSet) : Prop :=
  Intervals.Valid set.v4 ∧ Intervals.Valid set.v6

end ChinaIpSet

/-- `set'` has what `set` has and what `e` covers. -/
structure Adds (set set' : ChinaIpSet) (e : Entry) : Prop where
  covers : ∀ ip, set'.Covers ip ↔ set.Covers ip ∨ e.Covers ip
  valid : set.Valid → set'.Valid

section reading
variable {lib : TableLib} {set set' : ChinaIpSet}

/-- The bounds of a network are its first and its last address. -/
theorem net_bounds {w : Nat} (api : NetApi w) (net : Cidr.Block w) (x : BitVec w) :
    net.Mem x ↔ api.network net ≤ x ∧ x ≤ api.broadcast net := by
  rw [Cidr.Block.mem_iff_between, api.network_eq, api.broadcast_eq]

/-- The code's other way to the last address. -/
theorem broadcast_eq_or {w : Nat} (api : NetApi w) (net : Cidr.Block w) :
    api.network net ||| ~~~ api.netmask net = api.broadcast net := by
  rw [api.network_eq, api.broadcast_eq, api.netmask_eq]
  ext i
  simp only [BitVec.getElem_or, BitVec.getElem_and, BitVec.getElem_not]
  cases net.base[i] <;> simp

/-- Adding a range of IPv4 values. -/
theorem adds_v4 {e : Entry} {start stop : Word 32}
    (hcovers : ∀ ip, e.Covers (.v4 ip) ↔ start ≤ ip.toWord ∧ ip.toWord ≤ stop)
    (hother : ∀ ip, ¬ e.Covers (.v6 ip)) (hvalid : start ≤ stop) :
    Adds set { set with v4 := set.v4 ++ [(start, stop)] } e where
  covers := fun ip => by
    cases ip with
    | v4 ip =>
      show Intervals.Covers (set.v4 ++ [(start, stop)]) ip.toWord ↔ _
      rw [covers_append, hcovers, covers_cons]
      simp only [covers_nil, or_false]
      exact Iff.rfl
    | v6 ip =>
      constructor
      · exact .inl
      · rintro (h | h)
        · exact h
        · exact absurd h (hother ip)
  valid := fun ⟨h4, h6⟩ => ⟨fun r hr => by
    rcases List.mem_append.mp hr with hr | hr
    · exact h4 r hr
    · rw [List.mem_singleton.mp hr]
      exact hvalid, h6⟩

/-- Adding a range of IPv6 values. -/
theorem adds_v6 {e : Entry} {start stop : Word 128}
    (hcovers : ∀ ip, e.Covers (.v6 ip) ↔ start ≤ ip.toWord ∧ ip.toWord ≤ stop)
    (hother : ∀ ip, ¬ e.Covers (.v4 ip)) (hvalid : start ≤ stop) :
    Adds set { set with v6 := set.v6 ++ [(start, stop)] } e where
  covers := fun ip => by
    cases ip with
    | v6 ip =>
      show Intervals.Covers (set.v6 ++ [(start, stop)]) ip.toWord ↔ _
      rw [covers_append, hcovers, covers_cons]
      simp only [covers_nil, or_false]
      exact Iff.rfl
    | v4 ip =>
      constructor
      · exact .inl
      · rintro (h | h)
        · exact h
        · exact absurd h (hother ip)
  valid := fun ⟨h4, h6⟩ => ⟨h4, fun r hr => by
    rcases List.mem_append.mp hr with hr | hr
    · exact h6 r hr
    · rw [List.mem_singleton.mp hr]
      exact hvalid⟩

/-- A network adds what it covers. -/
theorem pushNet_adds (net : IpNet) : Adds set (pushNet lib net set) (.net net) := by
  cases net with
  | v4 net =>
    refine adds_v4 (fun ip => net_bounds lib.net4 net ip.bits) (fun _ h => h) ?_
    have hself := (net_bounds lib.net4 net net.base).mp rfl
    exact le_trans hself.1 hself.2
  | v6 net =>
    simp only [pushNet, broadcast_eq_or]
    refine adds_v6 (fun ip => net_bounds lib.net6 net ip.bits) (fun _ h => h) ?_
    have hself := (net_bounds lib.net6 net net.base).mp rfl
    exact le_trans hself.1 hself.2

/-- A range is added if it is well-formed, and refused otherwise. -/
theorem pushRange_adds (set : ChinaIpSet) {start stop : IpAddr} (h : Entry.WellFormed (.range start stop)) :
    ∃ set', pushRange start stop set = .ok set' ∧ Adds set set' (.range start stop) := by
  cases start with
  | v4 start =>
    cases stop with
    | v4 stop =>
      have hle : start.toWord ≤ stop.toWord := h
      exact ⟨_, if_neg (not_lt.mpr hle), adds_v4 (fun _ => Iff.rfl) (fun _ h => h) hle⟩
    | v6 stop => cases h
  | v6 start =>
    cases stop with
    | v4 stop => cases h
    | v6 stop =>
      have hle : start.toWord ≤ stop.toWord := h
      exact ⟨_, if_neg (not_lt.mpr hle), adds_v6 (fun _ => Iff.rfl) (fun _ h => h) hle⟩

theorem pushRange_refused (set : ChinaIpSet) {start stop : IpAddr} (h : ¬ Entry.WellFormed (.range start stop)) :
    ∃ err, pushRange start stop set = .error err := by
  cases start with
  | v4 start =>
    cases stop with
    | v4 stop =>
      have hlt : stop.toWord < start.toWord := not_le.mp h
      exact ⟨_, if_pos hlt⟩
    | v6 stop => exact ⟨_, rfl⟩
  | v6 start =>
    cases stop with
    | v4 stop => exact ⟨_, rfl⟩
    | v6 stop =>
      have hlt : stop.toWord < start.toWord := not_le.mp h
      exact ⟨_, if_pos hlt⟩

/-- A single address is a range of its own. -/
theorem self_range (ip : IpAddr) : Entry.WellFormed (.range ip ip) ∧
    ∀ x, Entry.Covers (.range ip ip) x ↔ Entry.Covers (.addr ip) x := by
  cases ip with
  | v4 ip =>
    refine ⟨le_refl ip.toWord, fun x => ?_⟩
    cases x with
    | v4 x =>
      show ip.bits ≤ x.bits ∧ x.bits ≤ ip.bits ↔ IpAddr.v4 ip = .v4 x
      rw [IpAddr.v4.injEq, Ipv4Addr.mk.injEq]
      exact ⟨fun h => BitVec.le_antisymm h.1 h.2, fun h => h ▸ ⟨BitVec.le_refl _, BitVec.le_refl _⟩⟩
    | v6 x => exact ⟨fun h => h.elim, fun h => by cases h⟩
  | v6 ip =>
    refine ⟨le_refl ip.toWord, fun x => ?_⟩
    cases x with
    | v4 x => exact ⟨fun h => h.elim, fun h => by cases h⟩
    | v6 x =>
      show ip.bits ≤ x.bits ∧ x.bits ≤ ip.bits ↔ IpAddr.v6 ip = .v6 x
      rw [IpAddr.v6.injEq, Ipv6Addr.mk.injEq]
      exact ⟨fun h => BitVec.le_antisymm h.1 h.2, fun h => h ▸ ⟨BitVec.le_refl _, BitVec.le_refl _⟩⟩

theorem readLine_ignored {path : String} {idx : Nat} {line : Text} (h : Ignored line) :
    readLine lib path idx line set = .ok set :=
  if_pos h

/-- A line with a well-formed entry adds what the entry covers. -/
theorem readLine_entry (path : String) (idx : Nat) (set : ChinaIpSet) {line : Text}
    {e : Entry} (hline : ¬ Ignored line) (he : entryOf lib line = some e) (hwf : e.WellFormed) :
    ∃ set', readLine lib path idx line set = .ok set' ∧ Adds set set' e := by
  have hread : readLine lib path idx line set = _ := if_neg hline
  unfold entryOf at he
  split at he
  · next single hfields =>
    rw [hread]
    simp only [hfields]
    cases hnet : lib.parseNet single with
    | some net =>
      rw [hnet] at he
      obtain rfl := Option.some.inj he
      exact ⟨_, rfl, pushNet_adds net⟩
    | none =>
      rw [hnet] at he
      cases hip : lib.parseIp single with
      | none =>
        rw [hip] at he
        cases he
      | some ip =>
        rw [hip] at he
        obtain rfl := Option.some.inj he
        -- a single address is pushed as a range of one
        obtain ⟨hself, hsame⟩ := self_range ip
        obtain ⟨set', hpush, hadds⟩ := pushRange_adds set hself
        refine ⟨set', ?_, fun x => (hadds.covers x).trans (or_congr Iff.rfl (hsame x)), hadds.valid⟩
        simp only [pushRangeContext, hpush]
  · next start stop hfields =>
    rw [hread]
    simp only [hfields]
    simp only [Option.bind_eq_bind, Option.bind_eq_some_iff, Option.pure_def,
      Option.some.injEq] at he
    obtain ⟨first, hfirst, last, hlast, rfl⟩ := he
    obtain ⟨set', hpush, hadds⟩ := pushRange_adds set hwf
    refine ⟨set', ?_, hadds⟩
    simp only [hfirst, hlast, pushRangeContext, hpush]
  · cases he

/-- A malformed line is an error. -/
theorem readLine_malformed (path : String) (idx : Nat) (set : ChinaIpSet) {line : Text} (h : Malformed lib line) :
    ∃ err, readLine lib path idx line set = .error err := by
  obtain ⟨hline, hentry⟩ := h
  have hread : readLine lib path idx line set = _ := if_neg hline
  unfold entryOf at hentry
  split at hentry
  · next single hfields =>
    rw [hread]
    simp only [hfields]
    cases hnet : lib.parseNet single with
    | some net =>
      rw [hnet] at hentry
      exact absurd trivial (hentry _ rfl)
    | none =>
      rw [hnet] at hentry
      cases hip : lib.parseIp single with
      | none => exact ⟨_, rfl⟩
      | some ip =>
        rw [hip] at hentry
        exact absurd trivial (hentry _ rfl)
  · next start stop hfields =>
    rw [hread]
    simp only [hfields]
    cases hfirst : lib.parseIp start with
    | none => exact ⟨_, rfl⟩
    | some first =>
      cases hlast : lib.parseIp stop with
      | none => exact ⟨_, rfl⟩
      | some last =>
        rw [hfirst, hlast] at hentry
        -- both ends are read, so it is the range that is refused
        obtain ⟨err, hpush⟩ := pushRange_refused set (hentry _ rfl)
        simp only [pushRangeContext, hpush]
        exact ⟨_, rfl⟩
  · next hmany hmany' =>
    rw [hread]
    split
    · next single hfields => exact absurd hfields (hmany single)
    · next start stop hfields => exact absurd hfields (hmany' start stop)
    · exact ⟨_, rfl⟩

/-- One malformed line fails the whole table. -/
theorem readLines_malformed (path : String) (set : ChinaIpSet) {lines : List Text}
    (h : ∃ line ∈ lines, Malformed lib line) (idx : Nat) :
    ∃ err, readLines lib path idx lines set = .error err := by
  induction lines generalizing idx set with
  | nil =>
    obtain ⟨line, hmem, -⟩ := h
    cases hmem
  | cons line lines ih =>
    rw [readLines]
    cases hread : readLine lib path idx line set with
    | error err => exact ⟨err, rfl⟩
    | ok set' =>
      obtain ⟨bad, hmem, hbad⟩ := h
      rcases List.mem_cons.mp hmem with rfl | hmem
      · obtain ⟨err, herr⟩ := readLine_malformed path idx set hbad
        rw [hread] at herr
        cases herr
      · exact ih set' ⟨bad, hmem, hbad⟩ (idx + 1)

/-- Otherwise the lines add what they cover. -/
theorem readLines_adds (path : String) (set : ChinaIpSet) {lines : List Text}
    (h : ∀ line ∈ lines, ¬ Malformed lib line) (idx : Nat) :
    ∃ set', readLines lib path idx lines set = .ok set' ∧ (set.Valid → set'.Valid) ∧
      ∀ ip, set'.Covers ip ↔ set.Covers ip ∨ ∃ line ∈ lines, LineCovers lib line ip := by
  induction lines generalizing idx set with
  | nil => exact ⟨set, rfl, id, fun ip => by simp⟩
  | cons line lines ih =>
    have hrest : ∀ line ∈ lines, ¬ Malformed lib line :=
      fun line hmem => h line (List.mem_cons_of_mem _ hmem)
    rw [readLines]
    by_cases hline : Ignored line
    · obtain ⟨set', hset', hvalid, hcovers⟩ := ih set hrest (idx + 1)
      rw [readLine_ignored hline]
      refine ⟨set', hset', hvalid, fun ip => ?_⟩
      rw [hcovers]
      simp [LineCovers, hline]
    · have hentry := h line List.mem_cons_self
      simp only [Malformed, not_and, not_forall, not_not] at hentry
      obtain ⟨e, he, hwf⟩ := hentry hline
      obtain ⟨set₁, hread, hadds⟩ := readLine_entry path idx set hline he hwf
      obtain ⟨set', hset', hvalid, hcovers⟩ := ih set₁ hrest (idx + 1)
      rw [hread]
      refine ⟨set', hset', fun hv => hvalid (hadds.valid hv), fun ip => ?_⟩
      -- a line that is not ignored covers what its entry does
      have hthis : LineCovers lib line ip ↔ e.Covers ip := by
        simp [LineCovers, hline, he]
      rw [hcovers, hadds.covers, or_assoc]
      simp [hthis]

end reading

/-! ## Merging and looking up -/

section lookup
variable {w : Nat}

theorem le_saturatingAddOne (x : Word w) : x ≤ saturatingAddOne x := by
  unfold saturatingAddOne
  split
  · exact Nat.le_succ _
  · exact le_refl _

theorem saturatingAddOne_le {x y : Word w} (h : x < y) : saturatingAddOne x ≤ y := by
  have hlt : x.val < y.val := h
  have hy := y.isLt
  rw [saturatingAddOne, dif_pos (by omega)]
  exact hlt

/-- Merged ranges are in normal form and cover the same values. -/
theorem mergeRanges_spec (lib : SortByStart w) {ranges : List (Word w × Word w)}
    (hvalid : Intervals.Valid ranges) :
    Normal saturatingAddOne (mergeRanges lib ranges) ∧
      ∀ x, Intervals.Covers (mergeRanges lib ranges) x ↔ Intervals.Covers ranges x := by
  have hperm := lib.perm ranges
  have hsorted := lib.sorted ranges
  unfold mergeRanges
  by_cases hempty : ranges = []
  · rw [if_pos hempty, hempty]
    exact ⟨⟨fun _ h => (by cases h), .nil⟩, fun _ => Iff.rfl⟩
  · rw [if_neg hempty]
    cases hsort : lib.sort ranges with
    | nil =>
      rw [hsort] at hperm
      exact absurd hperm.nil_eq.symm hempty
    | cons cur rest =>
      rw [hsort] at hperm hsorted
      have hnext : ∀ a b : Word w, a < b → saturatingAddOne a ≤ b :=
        fun _ _ => saturatingAddOne_le
      obtain ⟨out, hout, hnormal, -, hcovers⟩ := mergeLoop_spec hnext [] cur rest
        (fun r hr => hvalid r (hperm.mem_iff.mp hr)) hsorted
      rw [List.nil_append] at hout
      show Normal _ (mergeLoop _ [] cur rest) ∧ ∀ x, Intervals.Covers (mergeLoop _ [] cur rest) x ↔ _
      rw [hout]
      exact ⟨hnormal, fun x => (hcovers x).trans (covers_perm hperm x)⟩

/-- The lookup in merged ranges does not panic and decides membership. -/
theorem containsRange_spec {ranges : List (Word w × Word w)}
    (h : Normal saturatingAddOne ranges) (ip : Word w) :
    ∃ b, containsRange ranges ip = .ok b ∧ (b = true ↔ Intervals.Covers ranges ip) := by
  have hspec := Search.binarySearchByKey_spec ip (h.sorted le_saturatingAddOne)
  unfold containsRange
  split
  · next i hsearch =>
    rw [hsearch] at hspec
    obtain ⟨r, hr, hstart⟩ := hspec
    have hmem := List.mem_of_getElem? hr
    exact ⟨true, rfl, fun _ => ⟨r, hmem, hstart.le, hstart ▸ h.valid r hmem⟩, fun _ => rfl⟩
  · next hsearch =>
    rw [hsearch] at hspec
    -- all ranges start behind the address
    obtain ⟨-, -, habove⟩ := hspec
    refine ⟨false, rfl, fun hf => by (cases hf), ?_⟩
    intro ⟨r, hr, hlow, _⟩
    obtain ⟨j, hj⟩ := List.getElem?_of_mem hr
    exact absurd hlow (not_le.mpr (habove j r (Nat.zero_le j) hj))
  · next i hsearch =>
    rw [hsearch] at hspec
    obtain ⟨hlen, hbelow, habove⟩ := hspec
    have hi : ranges[i]? = some ranges[i] := List.getElem?_eq_getElem hlen
    rw [index_eq hi]
    refine ⟨_, rfl, ?_⟩
    rw [decide_eq_true_eq]
    constructor
    · exact fun hin => ⟨_, List.getElem_mem hlen, hin⟩
    · intro ⟨r, hr, hlow, hhigh⟩
      obtain ⟨j, hj⟩ := List.getElem?_of_mem hr
      obtain ⟨hjlen, hjr⟩ := List.getElem?_eq_some_iff.mp hj
      rcases Nat.lt_trichotomy j i with hlt | rfl | hgt
      · -- an earlier range ends before the one at `i` starts
        have hgap := List.pairwise_iff_getElem.mp h.gaps j i hjlen hlen hlt
        rw [hjr] at hgap
        have hstart := hbelow i _ (Nat.lt_succ_self i) hi
        have hend : r.2 < ip := lt_of_le_of_lt (le_saturatingAddOne r.2) (lt_trans hgap hstart)
        exact absurd hhigh (not_le.mpr hend)
      · show ranges[j].1 ≤ ip ∧ ip ≤ ranges[j].2
        rw [hjr]
        exact ⟨hlow, hhigh⟩
      -- a later range starts behind the address
      · exact absurd hlow (not_le.mpr (habove j r hgt hj))

end lookup

/-! ## Loading -/

section loading
variable {lib : TableLib} {text4 text6 : Text}

/-- The lines of both files, as `load` reads them. -/
theorem load_eq (path4 path6 : String) :
    ChinaIpSet.load lib ⟨path4, some text4⟩ ⟨path6, some text6⟩ = (do
      let set ← readLines lib path4 0 (Str.lines text4) ⟨[], []⟩
      let set ← readLines lib path6 0 (Str.lines text6) set
      return ⟨mergeU32Ranges lib.sort4 set.v4, mergeU128Ranges lib.sort6 set.v6⟩) :=
  rfl

/-- A malformed line in either file fails the load. -/
theorem load_malformed (path4 path6 : String)
    (h : ∃ line ∈ Str.lines text4 ++ Str.lines text6, Malformed lib line) :
    ∃ err, ChinaIpSet.load lib ⟨path4, some text4⟩ ⟨path6, some text6⟩ = .error err := by
  rw [load_eq]
  cases hread4 : readLines lib path4 0 (Str.lines text4) ⟨[], []⟩ with
  | error err => exact ⟨err, rfl⟩
  | ok set =>
    obtain ⟨line, hmem, hbad⟩ := h
    rcases List.mem_append.mp hmem with hmem | hmem
    · obtain ⟨err, herr⟩ := readLines_malformed path4 ⟨[], []⟩
        ⟨line, hmem, hbad⟩ 0
      rw [hread4] at herr
      cases herr
    · obtain ⟨err, herr⟩ := readLines_malformed path6 set
        ⟨line, hmem, hbad⟩ 0
      exact ⟨err, by rw [ok_bind, herr, error_bind]⟩

/-- A set with merged ranges answers whether it covers the address. -/
theorem contains_spec (set : ChinaIpSet) (h4 : Normal saturatingAddOne set.v4)
    (h6 : Normal saturatingAddOne set.v6) (ip : IpAddr) :
    ∃ b, set.contains ip = .ok b ∧ (b = true ↔ set.Covers ip) := by
  cases ip with
  | v4 ip => exact containsRange_spec h4 ip.toWord
  | v6 ip => exact containsRange_spec h6 ip.toWord

/-- Without a malformed line the load succeeds, with merged ranges that cover what
    the lines cover. -/
theorem load_merged (path4 path6 : String)
    (h : ∀ line ∈ Str.lines text4 ++ Str.lines text6, ¬ Malformed lib line) :
    ∃ set, ChinaIpSet.load lib ⟨path4, some text4⟩ ⟨path6, some text6⟩ = .ok set ∧
      Normal saturatingAddOne set.v4 ∧ Normal saturatingAddOne set.v6 ∧
      ∀ ip, set.Covers ip ↔ ∃ line ∈ Str.lines text4 ++ Str.lines text6, LineCovers lib line ip := by
  obtain ⟨set1, hread1, hvalid1, hcovers1⟩ := readLines_adds path4 ⟨[], []⟩
    (fun line hmem => h line (List.mem_append_left _ hmem)) 0
  obtain ⟨set2, hread2, hvalid2, hcovers2⟩ := readLines_adds path6 set1
    (fun line hmem => h line (List.mem_append_right _ hmem)) 0
  have hvalid : set2.Valid :=
    hvalid2 (hvalid1 ⟨fun _ hr => (by cases hr), fun _ hr => (by cases hr)⟩)
  have hcovers : ∀ ip, set2.Covers ip ↔
      ∃ line ∈ Str.lines text4 ++ Str.lines text6, LineCovers lib line ip := by
    intro ip
    have hempty : ¬ ChinaIpSet.Covers ⟨[], []⟩ ip := by
      cases ip <;> exact covers_nil _
    rw [hcovers2, hcovers1]
    simp [hempty, or_and_right, exists_or]
  -- merging changes neither what is covered nor the family
  obtain ⟨hnormal4, hmerge4⟩ := mergeRanges_spec lib.sort4 hvalid.1
  obtain ⟨hnormal6, hmerge6⟩ := mergeRanges_spec lib.sort6 hvalid.2
  refine ⟨⟨mergeU32Ranges lib.sort4 set2.v4, mergeU128Ranges lib.sort6 set2.v6⟩, ?_,
    hnormal4, hnormal6, fun ip => Iff.trans ?_ (hcovers ip)⟩
  · rw [load_eq, hread1, ok_bind, hread2, ok_bind]
    rfl
  · cases ip with
    | v4 ip => exact hmerge4 ip.toWord
    | v6 ip => exact hmerge6 ip.toWord

/-- So lookups answer what the lines cover. -/
theorem load_well_formed (path4 path6 : String)
    (h : ∀ line ∈ Str.lines text4 ++ Str.lines text6, ¬ Malformed lib line) :
    ∃ set, ChinaIpSet.load lib ⟨path4, some text4⟩ ⟨path6, some text6⟩ = .ok set ∧
      ∀ ip, ∃ b, set.contains ip = .ok b ∧
        (b = true ↔ ∃ line ∈ Str.lines text4 ++ Str.lines text6, LineCovers lib line ip) := by
  obtain ⟨set, hload, hnormal4, hnormal6, hcovers⟩ := load_merged path4 path6 h
  refine ⟨set, hload, fun ip => ?_⟩
  obtain ⟨b, hb, hiff⟩ := contains_spec set hnormal4 hnormal6 ip
  exact ⟨b, hb, hiff.trans (hcovers ip)⟩

end loading

/-! ## The main result -/

/-- **The set means its tables**: loading fails exactly on a malformed line, and
    the loaded set contains exactly the addresses some line covers. -/
theorem load_exact (lib : TableLib) (path4 path6 : String) (text4 text6 : Text) :
    ((∃ err, ChinaIpSet.load lib ⟨path4, some text4⟩ ⟨path6, some text6⟩ = .error err) ↔
      ∃ line ∈ Str.lines text4 ++ Str.lines text6, Malformed lib line) ∧
    ∀ set, ChinaIpSet.load lib ⟨path4, some text4⟩ ⟨path6, some text6⟩ = .ok set →
      ∀ ip, ∃ b, set.contains ip = .ok b ∧
        (b = true ↔ ∃ line ∈ Str.lines text4 ++ Str.lines text6, LineCovers lib line ip) := by
  by_cases hbad : ∃ line ∈ Str.lines text4 ++ Str.lines text6, Malformed lib line
  · obtain ⟨err, herr⟩ := load_malformed path4 path6 hbad
    exact ⟨⟨fun _ => hbad, fun _ => ⟨err, herr⟩⟩, fun set hset => by rw [herr] at hset; cases hset⟩
  · have hgood : ∀ line ∈ Str.lines text4 ++ Str.lines text6, ¬ Malformed lib line :=
      fun line hmem hm => hbad ⟨line, hmem, hm⟩
    obtain ⟨set, hset, hcontains⟩ := load_well_formed path4 path6 hgood
    refine ⟨⟨fun ⟨err, herr⟩ => ?_, fun h => absurd h hbad⟩, fun set' hset' => ?_⟩
    · rw [hset] at herr
      cases herr
    · rw [hset] at hset'
      obtain rfl := Except.ok.inj hset'
      exact hcontains

/-! ## A run of the loader -/

/-- The methods of `ipnet`, by their defining equations. -/
def NetApi.standard (w : Nat) : NetApi w where
  network net := net.base &&& Cidr.netmask w net.prefixLen
  broadcast net := net.base ||| ~~~ Cidr.netmask w net.prefixLen
  netmask net := Cidr.netmask w net.prefixLen
  network_eq _ := rfl
  broadcast_eq _ := rfl
  netmask_eq _ := rfl

/-- Insertion sort is one of the sorts the loader may use. -/
def SortByStart.insertion (w : Nat) : SortByStart w where
  sort := List.insertionSort fun a b => a.1 ≤ b.1
  perm := List.perm_insertionSort _
  sorted ranges :=
    have : Std.Total fun a b : Word w × Word w => a.1 ≤ b.1 := ⟨fun a b => le_total a.1 b.1⟩
    have : IsTrans (Word w × Word w) fun a b => a.1 ≤ b.1 := ⟨fun _ _ _ => le_trans⟩
    List.pairwise_insertionSort _ ranges

/-- Two addresses and a network, by their texts. -/
def tableLibExample : TableLib where
  parseIp text := match String.ofList text with
    | "10.0.0.2" => some (.v4 (.new 10 0 0 2))
    | "10.0.0.4" => some (.v4 (.new 10 0 0 4))
    | _ => none
  parseNet text := match String.ofList text with
    | "10.0.0.1/31" => some (.v4 ⟨0x0a000001, 31, by decide⟩)
    | _ => none
  net4 := .standard 32
  net6 := .standard 128
  sort4 := .insertion 32
  sort6 := .insertion 128

/-- A comment, a range and a network with a host bit merge into one range. -/
example :
    (ChinaIpSet.load tableLibExample
      ⟨"v4", some "# table\n10.0.0.2 10.0.0.4\n".toList⟩ ⟨"v6", some "10.0.0.1/31".toList⟩).map
      (fun set => (set.v4, set.contains (.v4 (.new 10 0 0 4)))) =
    .ok ([(0x0a000000, 0x0a000004)], .ok true) := by
  decide +kernel

end EchProxy
