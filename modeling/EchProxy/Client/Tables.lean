import EchProxy.Client.Startup

/-! # The Tables of a Client

    The two table files mean a set of addresses and nothing else: files that
    cover the same addresses make the same client, in whatever order, form and
    file the entries stand, with whatever comments, duplicates and overlaps.
    Files that cannot be used are refused with the place of the first line that
    is wrong.
-/

namespace EchProxy

open Checked Traced

/-! ## The client over them -/

namespace Environment

variable {w : Width}

/-- Both files can be used. -/
def TablesRead (env : Environment w) : Prop :=
  env.ipv4Cidrs.ReadsWell env.tableLib ∧ env.ipv6Cidrs.ReadsWell env.tableLib

/-- The address is in the tables. -/
def InTables (env : Environment w) (ip : IpAddr) : Prop :=
  env.ipv4Cidrs.Covers env.tableLib ip ∨ env.ipv6Cidrs.Covers env.tableLib ip

/-- The same environment, but for the tables and the way they are sorted. -/
structure AlikeButTables (env env' : Environment w) : Prop where
  overflowChecks : env'.overflowChecks = env.overflowChecks
  world : env'.world = env.world

end Environment

/-- A start looks at the tables through the set only. -/
theorem run_of_load_eq {w : Width} {env env' : Environment w} (halike : env.AlikeButTables env')
    (hload : ChinaIpSet.load env'.tableLib env'.ipv4Cidrs env'.ipv6Cidrs =
      ChinaIpSet.load env.tableLib env.ipv4Cidrs env.ipv6Cidrs)
    (config : Config w) (walks : Walks config) : run env' config walks = run env config walks := by
  rw [run, run, MergedIpSet.load_congr hload, halike.overflowChecks, halike.world]

/-- **The tables mean a set of addresses and nothing else**: two environments that
    differ in their tables only load the same set exactly when the tables cover the
    same addresses, and then the client starts alike from every configuration, with
    the same router, and connects the same pools in the same way. -/
theorem tables_interchangeable {w : Width} {env env' : Environment w}
    (halike : env.AlikeButTables env') (hread : env.TablesRead) (hread' : env'.TablesRead) :
    (ChinaIpSet.load env'.tableLib env'.ipv4Cidrs env'.ipv6Cidrs =
        ChinaIpSet.load env.tableLib env.ipv4Cidrs env.ipv6Cidrs ↔
      ∀ ip, env'.InTables ip ↔ env.InTables ip) ∧
    ((∀ ip, env'.InTables ip ↔ env.InTables ip) →
      ∀ (config : Config w) (walks : Walks config), run env' config walks = run env config walks) := by
  have hiff := load_eq_iff hread'.1 hread'.2 hread.1 hread.2
  refine ⟨hiff, fun hsame config walks => ?_⟩
  exact run_of_load_eq halike (hiff.mpr hsame) config walks

/-- A range and a network that overlap. -/
def overlappingTables : Environment .bits64 :=
  { exampleEnvironment with
    ipv4Cidrs := ⟨"v4", some "# table\n10.0.0.2 10.0.0.4\n10.0.0.1/31\n".toList⟩ }

/-- The same addresses, in another order, twice, and partly in the other file. -/
def scatteredTables : Environment .bits64 :=
  { exampleEnvironment with
    ipv4Cidrs := ⟨"other", some "10.0.0.1/31\n10.0.0.4\n\n10.0.0.4".toList⟩
    ipv6Cidrs := ⟨"v6", some "  10.0.0.2   10.0.0.4\r\n".toList⟩ }

theorem overlappingTables_read : overlappingTables.TablesRead :=
  ⟨readsWell_of_readIpTable ⟨[], []⟩
      ⟨[(0x0a000002, 0x0a000004), (0x0a000000, 0x0a000001)], []⟩ (by decide +kernel),
    readsWell_of_readIpTable ⟨[], []⟩ ⟨[], []⟩ (by decide +kernel)⟩

theorem scatteredTables_read : scatteredTables.TablesRead :=
  ⟨readsWell_of_readIpTable ⟨[], []⟩
      ⟨[(0x0a000000, 0x0a000001), (0x0a000004, 0x0a000004), (0x0a000004, 0x0a000004)], []⟩
      (by decide +kernel),
    readsWell_of_readIpTable ⟨[], []⟩ ⟨[(0x0a000002, 0x0a000004)], []⟩ (by decide +kernel)⟩

/-- Alice's client starts alike over either. -/
theorem tables_interchangeable_example :
    run scatteredTables exampleConfig exampleWalks =
      run overlappingTables exampleConfig exampleWalks := by
  have halike : overlappingTables.AlikeButTables scatteredTables := ⟨rfl, rfl⟩
  obtain ⟨hiff, hrun⟩ :=
    tables_interchangeable halike overlappingTables_read scatteredTables_read
  refine hrun (hiff.mp ?_) exampleConfig exampleWalks
  decide +kernel

/-! ## The place of an error -/

/-- Why a pair of addresses is no range. -/
inductive RangeFault : IpAddr → IpAddr → RangeError → Prop where
  | v4Order {start stop : Ipv4Addr} (hlt : stop.toWord < start.toWord) :
      RangeFault (.v4 start) (.v4 stop) .v4Order
  | v6Order {start stop : Ipv6Addr} (hlt : stop.toWord < start.toWord) :
      RangeFault (.v6 start) (.v6 stop) .v6Order
  | upward (start : Ipv4Addr) (stop : Ipv6Addr) : RangeFault (.v4 start) (.v6 stop) .mixed
  | downward (start : Ipv6Addr) (stop : Ipv4Addr) : RangeFault (.v6 start) (.v4 stop) .mixed

/-- What is wrong with a line, as it is reported: the kind of error, and the cause
    below it. -/
inductive LineFault (lib : TableLib) (line : Text) : String → Option RangeError → Prop where
  /-- One field, that is neither a network nor an address. -/
  | field {field : Text} (hfields : Str.splitWhitespace (Str.trim line) = [field])
      (hnet : lib.parseNet field = none) (hip : lib.parseIp field = none) :
      LineFault lib line "invalid IP table entry" none
  /-- Two fields, and the first is no address. -/
  | start {first last : Text} (hfields : Str.splitWhitespace (Str.trim line) = [first, last])
      (hstart : lib.parseIp first = none) : LineFault lib line "invalid range start" none
  /-- The second is none. -/
  | stop {first last : Text} {start : IpAddr}
      (hfields : Str.splitWhitespace (Str.trim line) = [first, last])
      (hstart : lib.parseIp first = some start) (hstop : lib.parseIp last = none) :
      LineFault lib line "invalid range end" none
  /-- Both are, and they make no range. -/
  | range {first last : Text} {start stop : IpAddr} {cause : RangeError}
      (hfields : Str.splitWhitespace (Str.trim line) = [first, last])
      (hstart : lib.parseIp first = some start) (hstop : lib.parseIp last = some stop)
      (hfault : RangeFault start stop cause) : LineFault lib line "invalid IP range" (some cause)
  /-- Neither one field nor two. -/
  | count (hone : (Str.splitWhitespace (Str.trim line)).length ≠ 1)
      (htwo : (Str.splitWhitespace (Str.trim line)).length ≠ 2) :
      LineFault lib line "invalid IP table entry" none

/-- The error says what is wrong with this line, and where it stands. -/
def TableError.Names (lib : TableLib) (err : TableError) (path : String) (number : Nat)
    (line : Text) : Prop :=
  ∃ what cause, LineFault lib line what cause ∧ err = ⟨s!"{what} at {path}:{number}", cause⟩

section errors
variable {lib : TableLib} {set : ChinaIpSet} {err : TableError}

theorem pushRange_fault {start stop : IpAddr} {cause : RangeError}
    (h : pushRange start stop set = .error cause) : RangeFault start stop cause := by
  unfold pushRange at h
  split at h
  · split at h
    · next hlt => exact Except.error.inj h ▸ .v4Order hlt
    · cases h
  · split at h
    · next hlt => exact Except.error.inj h ▸ .v6Order hlt
    · cases h
  · next hnot4 hnot6 =>
    obtain rfl := Except.error.inj h
    cases start with
    | v4 start =>
      cases stop with
      | v4 stop => exact absurd rfl (hnot4 start stop rfl)
      | v6 stop => exact .upward start stop
    | v6 start =>
      cases stop with
      | v4 stop => exact .downward start stop
      | v6 stop => exact absurd rfl (hnot6 start stop rfl)

theorem pushRangeContext_error {message : String} {start stop : IpAddr}
    (h : pushRangeContext message start stop set = .error err) :
    ∃ cause, RangeFault start stop cause ∧ err = ⟨message, some cause⟩ := by
  unfold pushRangeContext at h
  split at h
  · cases h
  · next cause hpush => exact ⟨cause, pushRange_fault hpush, (Except.error.inj h).symm⟩

/-- An address and itself are a range. -/
theorem RangeFault.irrefl {ip : IpAddr} {cause : RangeError} : ¬ RangeFault ip ip cause := by
  intro h
  cases h with
  | v4Order hlt | v6Order hlt => exact absurd hlt (lt_irrefl _)

/-- An error of a line says what is wrong with it. -/
theorem readLine_error {path : String} {idx : Nat} {line : Text}
    (h : readLine lib path idx line set = .error err) : err.Names lib path (idx + 1) line := by
  unfold readLine at h
  dsimp only at h
  split at h
  · cases h
  · split at h
    · next field hfields =>
      split at h
      · cases h
      · next hnet =>
        split at h
        · next hip => exact ⟨_, _, .field hfields hnet hip, (Except.error.inj h).symm⟩
        · obtain ⟨cause, hfault, -⟩ := pushRangeContext_error h
          exact absurd hfault RangeFault.irrefl
    · next first last hfields =>
      split at h
      · next hstart => exact ⟨_, _, .start hfields hstart, (Except.error.inj h).symm⟩
      · next start hstart =>
        split at h
        · next hstop => exact ⟨_, _, .stop hfields hstart hstop, (Except.error.inj h).symm⟩
        · next stop hstop =>
          obtain ⟨cause, hfault, rfl⟩ := pushRangeContext_error h
          exact ⟨_, _, .range hfields hstart hstop hfault, rfl⟩
    · next hone htwo =>
      refine ⟨_, _, .count (fun hlength => ?_) fun hlength => ?_, (Except.error.inj h).symm⟩
      · obtain ⟨field, hfields⟩ := List.length_eq_one_iff.mp hlength
        exact hone field hfields
      · obtain ⟨first, last, hfields⟩ := List.length_eq_two.mp hlength
        exact htwo first last hfields

/-- A line that is not malformed is read. -/
theorem readLine_ok (path : String) (idx : Nat) (set : ChinaIpSet) {line : Text}
    (h : ¬ Malformed lib line) : ∃ set', readLine lib path idx line set = .ok set' := by
  by_cases hline : Ignored line
  · exact ⟨set, readLine_ignored hline⟩
  · simp only [Malformed, not_and, not_forall, not_not] at h
    obtain ⟨e, he, hwf⟩ := h hline
    obtain ⟨set', hread, -⟩ := readLine_entry path idx set hline he hwf
    exact ⟨set', hread⟩

/-- `n` lines of `lines` are well formed, and `line` is the next one and is not. -/
def FirstMalformed (lib : TableLib) (lines : List Text) (n : Nat) (line : Text) : Prop :=
  ∃ before after, lines = before ++ line :: after ∧ before.length = n ∧
    (∀ l ∈ before, ¬ Malformed lib l) ∧ Malformed lib line

/-- Reading stops at the first malformed line, and names it. -/
theorem readLines_error {path : String} {lines : List Text} {idx : Nat}
    (h : readLines lib path idx lines set = .error err) :
    ∃ n line, FirstMalformed lib lines n line ∧ err.Names lib path (idx + n + 1) line := by
  induction lines generalizing idx set with
  | nil => cases h
  | cons line lines ih =>
    rw [readLines] at h
    by_cases hbad : Malformed lib line
    · obtain ⟨err', hread⟩ := readLine_malformed path idx set hbad
      rw [hread, Result.error_bind] at h
      obtain rfl := Except.error.inj h
      exact ⟨0, line, ⟨[], lines, rfl, rfl, fun _ hl => (by cases hl), hbad⟩, readLine_error hread⟩
    · obtain ⟨set', hread⟩ := readLine_ok path idx set hbad
      rw [hread, Result.ok_bind] at h
      obtain ⟨n, bad, ⟨before, after, rfl, rfl, hgood, hmalformed⟩, hnames⟩ := ih h
      refine ⟨before.length + 1, bad, ⟨line :: before, after, rfl, rfl, ?_, hmalformed⟩, ?_⟩
      · exact List.forall_mem_cons.mpr ⟨hbad, hgood⟩
      · rwa [Nat.add_right_comm idx 1] at hnames

/-- Why a file cannot be used. -/
inductive TableFile.Refused (lib : TableLib) (file : TableFile) (err : TableError) : Prop where
  | unreadable (hcontent : file.content = none)
      (herr : err = ⟨s!"failed to read CIDR table {file.path}", none⟩)
  | malformed {raw line : Text} {n : Nat} (hcontent : file.content = some raw)
      (hfirst : FirstMalformed lib (Str.lines raw) n line)
      (hnames : err.Names lib file.path (n + 1) line)

theorem readIpTable_error {file : TableFile} (h : readIpTable lib file set = .error err) :
    file.Refused lib err := by
  unfold readIpTable at h
  split at h
  · next hcontent => exact .unreadable hcontent (Except.error.inj h).symm
  · next raw hcontent =>
    obtain ⟨n, line, hfirst, hnames⟩ := readLines_error h
    rw [Nat.zero_add] at hnames
    exact .malformed hcontent hfirst hnames

/-- **A load is refused for the first thing that is wrong**: the first file that
    cannot be used, and in it the first line that is malformed, which the message
    names by its number, counted from one, and by what is wrong with it. -/
theorem load_error_first {file4 file6 : TableFile}
    (h : ChinaIpSet.load lib file4 file6 = .error err) :
    file4.Refused lib err ∨ file4.ReadsWell lib ∧ file6.Refused lib err := by
  unfold ChinaIpSet.load at h
  cases hread4 : readIpTable lib file4 ⟨[], []⟩ with
  | error err' =>
    rw [hread4, Result.error_bind] at h
    obtain rfl := Except.error.inj h
    exact .inl (readIpTable_error hread4)
  | ok set =>
    rw [hread4, Result.ok_bind] at h
    cases hread6 : readIpTable lib file6 set with
    | error err' =>
      rw [hread6, Result.error_bind] at h
      obtain rfl := Except.error.inj h
      exact .inr ⟨readsWell_of_readIpTable _ _ hread4, readIpTable_error hread6⟩
    | ok set' =>
      rw [hread6] at h
      cases h

/-- A file whose third line, and whose fourth, are ranges from end to start. -/
def reversedRange : TableFile :=
  ⟨"v6", some "# v6\n10.0.0.2\n10.0.0.4 10.0.0.2\n10.0.0.4 10.0.0.2\n".toList⟩

/-- What is wrong is the order of the third line. -/
theorem load_error_first_reversed :
    TableFile.Refused tableLibExample ⟨"v4", some []⟩
        ⟨"invalid IP range at v6:3", some .v4Order⟩ ∨
      TableFile.ReadsWell tableLibExample ⟨"v4", some []⟩ ∧
        reversedRange.Refused tableLibExample ⟨"invalid IP range at v6:3", some .v4Order⟩ :=
  load_error_first (by decide +kernel)

end errors

end EchProxy
