import EchProxy.Http.Wire

/-! # Authorities

    What `parse_authority` accepts, form by form, beside the grammar of a
    well-formed authority: a host, with a port or without, in brackets or not.
-/

namespace EchProxy

namespace Http

open Checked

/-! ## What the parser accepts -/

/-- The text holds no byte `u8::is_ascii_whitespace` takes. -/
def NoSpace (t : Text) : Prop := ∀ b ∈ Text.asBytes t, isAsciiWhitespace b = false

/-- What stands behind the last colon is a number. -/
def EndsWithPort (authority : Text) : Prop :=
  ∃ host digits, authority = host ++ ':' :: digits ∧ Str.IsDigits digits

/-- Without a sign the number is all there is. -/
theorem parseU16_digits {digits : Text} {port : UInt16} (hdigits : Str.IsDigits digits) :
    parseU16 digits = .ok port ↔ Str.decimal digits = port.toNat := by
  rw [parseU16_eq_ok]
  constructor
  · rintro ⟨_, rfl | rfl, hdigits', hvalue⟩
    · exact hvalue
    · exact absurd List.mem_cons_self (hdigits.not_mem (by decide))
  · intro hvalue
    exact ⟨digits, .inl rfl, hdigits, hvalue⟩

/-- The last colon splits a port off. -/
theorem rsplitOnce_digits {digits : Text} (hdigits : Str.IsDigits digits) (host : Text) :
    Str.rsplitOnce ':' (host ++ ':' :: digits) = some (host, digits) :=
  Str.rsplitOnce_append (hdigits.not_mem (by decide)) host

/-- **Without brackets** the port is behind the last colon, if it is a number. -/
theorem splitAuthority_eq_ok {authority host : Text} {defaultPort port : UInt16} :
    splitAuthority authority defaultPort = .ok (host, port) ↔
      (∃ digits, authority = host ++ ':' :: digits ∧ Str.IsDigits digits ∧
        Str.decimal digits = port.toNat) ∨
      (host = authority ∧ port = defaultPort ∧ ¬ EndsWithPort authority) := by
  by_cases hends : EndsWithPort authority
  · obtain ⟨before, digits, rfl, hdigits⟩ := hends
    rw [splitAuthority, rsplitOnce_digits hdigits before]
    dsimp only
    rw [if_pos ⟨hdigits.1, List.all_eq_true.mpr hdigits.2⟩, Result.bind_eq_ok]
    constructor
    · rintro ⟨number, hnumber, h⟩
      obtain ⟨rfl, rfl⟩ := Prod.mk.inj (Except.ok.inj h)
      exact .inl ⟨digits, rfl, hdigits, (parseU16_digits hdigits).mp hnumber⟩
    · rintro (⟨digits', hsplit, hdigits', hvalue⟩ | ⟨-, -, hnone⟩)
      · -- there is one last colon
        have hsame := rsplitOnce_digits hdigits before
        rw [hsplit, rsplitOnce_digits hdigits' host, Option.some.injEq] at hsame
        obtain ⟨rfl, rfl⟩ := Prod.mk.inj hsame
        exact ⟨port, (parseU16_digits hdigits).mpr hvalue, rfl⟩
      · exact absurd ⟨before, digits, rfl, hdigits⟩ hnone
  -- without a port at its end the text is the host, colons and all
  · have hwhole : splitAuthority authority defaultPort = .ok (authority, defaultPort) := by
      rw [splitAuthority]
      cases hsplit : Str.rsplitOnce ':' authority with
      | none => rfl
      | some p =>
        obtain ⟨before, digits⟩ := p
        dsimp only
        rw [if_neg]
        · rfl
        · rintro ⟨hne, hall⟩
          exact hends ⟨before, digits, Str.rsplitOnce_spec hsplit, hne, List.all_eq_true.mp hall⟩
    rw [hwhole]
    constructor
    · intro h
      obtain ⟨rfl, rfl⟩ := Prod.mk.inj (Except.ok.inj h)
      exact .inr ⟨rfl, rfl, hends⟩
    · rintro (⟨digits, hform, hdigits, -⟩ | ⟨rfl, rfl, -⟩)
      · exact absurd ⟨host, digits, hform, hdigits⟩ hends
      · rfl

/-- **In brackets** the port is behind the first closing one. -/
theorem parseBracketed_eq_ok {rest host : Text} {defaultPort port : UInt16} :
    parseBracketed rest defaultPort = .ok (host, port) ↔
      ∃ after, rest = host ++ ']' :: after ∧ ']' ∉ host ∧
        ((after = [] ∧ port = defaultPort) ∨
          ∃ number, after = ':' :: number ∧ parseU16 number = .ok port) := by
  rw [parseBracketed, Result.bind_eq_ok]
  constructor
  · rintro ⟨⟨inside, after⟩, hsplit, h⟩
    obtain ⟨hrest, hclose⟩ := Str.splitOnce_char (context_eq_ok.mp hsplit)
    dsimp only at h
    split at h
    · next hnone =>
      obtain ⟨rfl, rfl⟩ := Prod.mk.inj (Except.ok.inj h)
      exact ⟨after, hrest, hclose, .inl ⟨hnone, rfl⟩⟩
    -- what stands behind the bracket has to be a colon and a number
    · rw [Result.bind_eq_ok] at h
      obtain ⟨number, hnumber, h⟩ := h
      rw [Result.bind_eq_ok] at h
      obtain ⟨value, hvalue, h⟩ := h
      obtain ⟨rfl, rfl⟩ := Prod.mk.inj (Except.ok.inj h)
      have hafter := Str.stripPrefix_eq_some.mp (context_eq_ok.mp hnumber)
      exact ⟨after, hrest, hclose, .inr ⟨number, hafter, hvalue⟩⟩
  · rintro ⟨after, rfl, hclose, hport⟩
    have hcut := Str.splitOnce_append hclose [] after
    rw [List.append_assoc, List.singleton_append] at hcut
    refine ⟨(host, after), context_eq_ok.mpr hcut, ?_⟩
    dsimp only
    rcases hport with ⟨rfl, rfl⟩ | ⟨number, rfl, hnumber⟩
    · rw [if_pos rfl]
      rfl
    · rw [if_neg (List.cons_ne_nil _ _), Result.bind_eq_ok]
      refine ⟨number, context_eq_ok.mpr (Str.stripPrefix_append [':'] number), ?_⟩
      rw [hnumber]
      rfl

/-- The two branches of `parse_authority`. -/
inductive Accepts (defaultPort : UInt16) (host : Text) (port : UInt16) (authority : Text) : Prop
  | bracketed (rest : Text) (hbracket : authority = '[' :: rest)
      (hread : parseBracketed rest defaultPort = .ok (host, port))
  | plain (hbracket : ∀ rest, authority ≠ '[' :: rest)
      (hread : splitAuthority authority defaultPort = .ok (host, port))
      (hhost : host ≠ []) (hport : port ≠ 0) (hspace : NoSpace host)

theorem noSpace_iff {t : Text} : NoSpace t ↔ (Text.asBytes t).any isAsciiWhitespace ≠ true := by
  rw [NoSpace, Ne, Bool.not_eq_true, List.any_eq_false]
  simp only [Bool.not_eq_true]

/-- **What `parse_authority` accepts.** -/
theorem parseAuthority_eq_ok {authority host : Text} {defaultPort port : UInt16} :
    parseAuthority authority defaultPort = .ok (host, port) ↔
      '@' ∉ authority ∧ Accepts defaultPort host port authority := by
  rw [parseAuthority]
  by_cases hbad : authority = [] ∨ '@' ∈ authority
  · rw [if_pos hbad]
    constructor
    · intro h
      cases h
    · rintro ⟨hat, haccepts⟩
      rcases hbad with rfl | hmem
      · cases haccepts with
        | bracketed rest hbracket hread => cases hbracket
        | plain hbracket hread hhost hport hspace =>
          rcases splitAuthority_eq_ok.mp hread with ⟨digits, hform, -⟩ | ⟨hwhole, -⟩
          · simp at hform
          · exact absurd hwhole hhost
      · exact absurd hmem hat
  · rw [if_neg hbad]
    obtain ⟨-, hat⟩ := not_or.mp hbad
    cases hstrip : Str.stripPrefix ['['] authority with
    | some rest =>
      have hform : authority = '[' :: rest := Str.stripPrefix_eq_some.mp hstrip
      constructor
      · intro h
        exact ⟨hat, .bracketed rest hform h⟩
      · rintro ⟨_, haccepts⟩
        cases haccepts with
        | bracketed rest' hbracket hread =>
          obtain rfl : rest' = rest := (List.cons.inj (hbracket.symm.trans hform)).2
          exact hread
        | plain hbracket hread hhost hport hspace => exact absurd hform (hbracket rest)
    | none =>
      -- no rule for brackets applies from here on
      have hplain : ∀ rest, authority ≠ '[' :: rest := by
        intro rest hform
        rw [Str.stripPrefix_eq_some.mpr hform] at hstrip
        cases hstrip
      dsimp only
      rw [Result.bind_eq_ok]
      constructor
      · rintro ⟨⟨host', port'⟩, hsplit, h⟩
        dsimp only at h
        split at h
        · cases h
        · next hvalid =>
          obtain ⟨rfl, rfl⟩ := Prod.mk.inj (Except.ok.inj h)
          obtain ⟨hhost, hrest⟩ := not_or.mp hvalid
          obtain ⟨hport, hspace⟩ := not_or.mp hrest
          exact ⟨hat, .plain hplain hsplit hhost hport (noSpace_iff.mpr hspace)⟩
      · rintro ⟨_, haccepts⟩
        cases haccepts with
        | bracketed rest hbracket hread => exact absurd hbracket (hplain rest)
        | plain hbracket hread hhost hport hspace =>
          refine ⟨(host, port), hread, ?_⟩
          dsimp only
          rw [if_neg]
          · rfl
          · rintro (hnone | hzero | hany)
            · exact hhost hnone
            · exact hport hzero
            · exact noSpace_iff.mp hspace hany

/-! ## Well-formed authorities -/

/-- The four forms of an authority. -/
inductive Form (defaultPort : UInt16) (host : Text) (port : UInt16) (authority : Text) : Prop
  | name (hform : authority = host) (hcolon : ':' ∉ host) (hport : port = defaultPort)
  | nameWithPort (digits : Text) (hform : authority = host ++ ':' :: digits) (hcolon : ':' ∉ host)
      (hdigits : Str.IsDigits digits) (hport : Str.decimal digits = port.toNat)
  | literal (hform : authority = '[' :: host ++ [']']) (hport : port = defaultPort)
  | literalWithPort (digits : Text) (hform : authority = '[' :: host ++ ']' :: ':' :: digits)
      (hdigits : Str.IsDigits digits) (hport : Str.decimal digits = port.toNat)

/-- The authority is well formed, with this host and this port. -/
structure WellFormed (defaultPort : UInt16) (host : Text) (port : UInt16) (authority : Text) :
    Prop where
  nonempty : host ≠ []
  space : NoSpace host
  at_sign : '@' ∉ host
  port_ne_zero : port ≠ 0
  form : Form defaultPort host port authority

/-- The kinds of authorities that are let in although they are malformed.  Without
    brackets a colon stays with the host: there is no number behind the last
    one, or there are several.  In brackets the host may be empty or have white
    space in it, and the port may have a sign or be zero. -/
inductive Malformed (authority : Text) : Prop
  | noNumber (hat : '@' ∉ authority) (hbracket : authority.head? ≠ some '[')
      (hspace : NoSpace authority) (hcolon : ':' ∈ authority) (hport : ¬ EndsWithPort authority)
  | colons (host digits : Text) (hform : authority = host ++ ':' :: digits)
      (hat : '@' ∉ authority) (hbracket : authority.head? ≠ some '[')
      (hspace : NoSpace authority) (hdigits : Str.IsDigits digits)
      (hrange : 1 ≤ Str.decimal digits ∧ Str.decimal digits ≤ 65535) (hcolon : ':' ∈ host)
  | blank (host after : Text) (hform : authority = '[' :: host ++ ']' :: after)
      (hat : '@' ∉ authority) (hclose : ']' ∉ host) (hblank : host = [] ∨ ¬ NoSpace host)
      (hafter : after = [] ∨
        ∃ number n, after = ':' :: number ∧ Str.parseUnsigned 65535 number = some n)
  | badPort (host number : Text) (n : Nat) (hform : authority = '[' :: host ++ ']' :: ':' :: number)
      (hat : '@' ∉ authority) (hclose : ']' ∉ host)
      (hnumber : Str.parseUnsigned 65535 number = some n)
      (hbad : number.head? = some '+' ∨ n = 0)

section wellFormed
variable {authority host : Text} {defaultPort port : UInt16}

theorem NoSpace.append {t u : Text} (ht : NoSpace t) (hu : NoSpace u) : NoSpace (t ++ u) := by
  intro b hb
  rw [Text.asBytes_append] at hb
  rcases List.mem_append.mp hb with hmem | hmem
  · exact ht b hmem
  · exact hu b hmem

theorem NoSpace.of_append {t u : Text} (h : NoSpace (t ++ u)) : NoSpace t ∧ NoSpace u := by
  rw [NoSpace, Text.asBytes_append] at h
  exact ⟨fun b hb => h b (List.mem_append_left _ hb), fun b hb => h b (List.mem_append_right _ hb)⟩

/-- A port has no white space. -/
theorem noSpace_port {digits : Text} (h : Str.IsDigits digits) : NoSpace (':' :: digits) := by
  intro b hb
  by_contra hspace
  rw [Bool.not_eq_false] at hspace
  have hsmall : b.toNat < 0x80 ∧ Char.ofNat b.toNat ≠ ':' ∧
      Str.isAsciiDigit (Char.ofNat b.toNat) = false := by
    simp only [isAsciiWhitespace, Bool.or_eq_true, beq_iff_eq] at hspace
    rcases hspace with (((rfl | rfl) | rfl) | rfl) | rfl <;> decide
  rcases List.mem_cons.mp (Text.mem_of_mem_asBytes hb hsmall.1) with hcolon | hdigit
  · exact hsmall.2.1 hcolon
  · exact h.not_mem hsmall.2.2 hdigit

/-- What is accepted is well formed, but for the kinds that are not. -/
theorem wellFormed_of_accepts (hdefault : defaultPort ≠ 0) (hat : '@' ∉ authority)
    (haccepts : Accepts defaultPort host port authority) (hnot : ¬ Malformed authority) :
    WellFormed defaultPort host port authority := by
  cases haccepts with
  | bracketed rest hbracket hread =>
    obtain ⟨after, rfl, hclose, hport⟩ := parseBracketed_eq_ok.mp hread
    have hform : authority = '[' :: host ++ ']' :: after := hbracket
    have hafter : after = [] ∨
        ∃ number n, after = ':' :: number ∧ Str.parseUnsigned 65535 number = some n := by
      rcases hport with ⟨hnone, -⟩ | ⟨number, hnumber, hvalue⟩
      · exact .inl hnone
      · obtain ⟨n, hn, -⟩ := parseU16_iff.mp hvalue
        exact .inr ⟨number, n, hnumber, hn⟩
    -- the host is not blank
    have hhost : host ≠ [] ∧ NoSpace host := by
      by_contra hblank
      rw [not_and_or, not_not] at hblank
      exact hnot (.blank host after hform hat hclose hblank hafter)
    have hsign : '@' ∉ host := by
      intro hmem
      apply hat
      rw [hform]
      simp [hmem]
    rcases hport with ⟨rfl, rfl⟩ | ⟨number, rfl, hvalue⟩
    · exact ⟨hhost.1, hhost.2, hsign, hdefault, .literal hform rfl⟩
    · obtain ⟨digits, hdigits', hdigits, hdecimal⟩ := parseU16_eq_ok.mp hvalue
      have hparse : Str.parseUnsigned 65535 number = some port.toNat := by
        have hlt := port.toNat_lt
        exact Str.parseUnsigned_eq_some.mpr ⟨digits, hdigits', hdigits, hdecimal, by omega⟩
      -- each way to be malformed is one the premise excludes
      have hzero : port ≠ 0 := by
        rintro rfl
        exact hnot (.badPort host number 0 hform hat hclose hparse (.inr rfl))
      rcases hdigits' with rfl | rfl
      · exact ⟨hhost.1, hhost.2, hsign, hzero, .literalWithPort number hform hdigits hdecimal⟩
      · exact absurd (.badPort host _ port.toNat hform hat hclose hparse (.inl rfl)) hnot
  | plain hbracket hread hhost hport hspace =>
    have hhead : authority.head? ≠ some '[' := by
      intro hhead
      obtain ⟨rest, hrest⟩ := List.head?_eq_some_iff.mp hhead
      exact hbracket rest hrest
    rcases splitAuthority_eq_ok.mp hread with ⟨digits, hform, hdigits, hdecimal⟩ | ⟨rfl, rfl, hends⟩
    · have hall : NoSpace authority := hform ▸ hspace.append (noSpace_port hdigits)
      have hpos : port.toNat ≠ 0 := fun hzero => hport (UInt16.toNat_inj.mp hzero)
      have hlt := port.toNat_lt
      -- a second colon would be one of the kinds of malformed authorities
      have hcolon : ':' ∉ host := by
        intro hmem
        exact hnot (.colons host digits hform hat hhead hall hdigits (by omega) hmem)
      have hsign : '@' ∉ host := fun hmem => hat (hform ▸ List.mem_append_left _ hmem)
      exact ⟨hhost, hspace, hsign, hport, .nameWithPort digits hform hcolon hdigits hdecimal⟩
    · have hcolon : ':' ∉ host := by
        intro hmem
        exact hnot (.noNumber hat hhead hspace hmem hends)
      exact ⟨hhost, hspace, hat, hport, .name rfl hcolon rfl⟩

/-- A port with a sign is none. -/
theorem not_form_of_sign {digits : Text} (hdigits : Str.IsDigits digits) :
    ¬ Form defaultPort host port ('[' :: host ++ ']' :: ':' :: '+' :: digits) := by
  have hcolon : ':' ∉ '+' :: digits := by
    intro hmem
    rcases List.mem_cons.mp hmem with heq | hmem
    · cases heq
    · exact hdigits.not_mem (by decide) hmem
  -- the text behind the last colon has a sign, so no form with digits fits it
  have hsigned : ¬ Str.IsDigits ('+' :: digits) :=
    fun h => h.not_mem (by decide) List.mem_cons_self
  intro h
  cases h with
  | name hform hno hport =>
    have hlength := congrArg List.length hform
    simp at hlength
    omega
  | nameWithPort digits' hform hno hdigits' hport =>
    -- the last colon is the one behind the bracket
    have hlast : '[' :: host ++ ']' :: ':' :: '+' :: digits =
        ('[' :: host ++ [']']) ++ ':' :: '+' :: digits := by simp
    have hcut := rsplitOnce_digits hdigits' host
    rw [← hform, hlast, Str.rsplitOnce_append hcolon, Option.some.injEq] at hcut
    exact hsigned ((Prod.mk.inj hcut).2 ▸ hdigits')
  | literal hform hport =>
    have hlength := congrArg List.length hform
    simp at hlength
  | literalWithPort digits' hform hdigits' hport =>
    have hrest := List.append_cancel_left hform
    simp only [List.cons.injEq, true_and] at hrest
    exact hsigned (hrest ▸ hdigits')

/-- The kinds that are not well formed are accepted. -/
theorem accepts_of_malformed (hdefault : defaultPort ≠ 0) (h : Malformed authority) :
    ∃ host port, parseAuthority authority defaultPort = .ok (host, port) ∧
      ¬ WellFormed defaultPort host port authority := by
  have hplain : authority.head? ≠ some '[' → ∀ rest, authority ≠ '[' :: rest := by
    rintro hhead rest rfl
    exact hhead rfl
  cases h with
  | noNumber hat hbracket hspace hcolon hport =>
    have hsome : authority ≠ [] := List.ne_nil_of_mem hcolon
    refine ⟨authority, defaultPort, parseAuthority_eq_ok.mpr ⟨hat, .plain (hplain hbracket)
      (splitAuthority_eq_ok.mpr (.inr ⟨rfl, rfl, hport⟩)) hsome hdefault hspace⟩, ?_⟩
    intro hwell
    cases hwell.form with
    | name hform hno hdef => exact hno hcolon
    | nameWithPort digits hform hno hdigits hvalue => exact hno hcolon
    | literal hform hdef => exact hplain hbracket _ hform
    | literalWithPort digits hform hdigits hvalue => exact hplain hbracket _ hform
  | colons host digits hform hat hbracket hspace hdigits hrange hcolon =>
    have hvalue : Str.decimal digits = (UInt16.ofNat (Str.decimal digits)).toNat := by
      rw [UInt16.toNat_ofNat', Nat.mod_eq_of_lt (by omega)]
    have hne : UInt16.ofNat (Str.decimal digits) ≠ 0 := by
      intro hzero
      rw [hzero] at hvalue
      have hnone : (0 : UInt16).toNat = 0 := rfl
      omega
    have hhost : NoSpace host := (hform ▸ hspace).of_append.1
    refine ⟨host, UInt16.ofNat (Str.decimal digits), parseAuthority_eq_ok.mpr ⟨hat,
      .plain (hplain hbracket) (splitAuthority_eq_ok.mpr (.inl ⟨digits, hform, hdigits, hvalue⟩))
      (List.ne_nil_of_mem hcolon) hne hhost⟩, ?_⟩
    intro hwell
    cases hwell.form with
    | name hform' hno hdef => exact hno hcolon
    | nameWithPort digits' hform' hno hdigits' hvalue' => exact hno hcolon
    | literal hform' hdef => exact hplain hbracket _ hform'
    | literalWithPort digits' hform' hdigits' hvalue' => exact hplain hbracket _ hform'
  -- the bracketed branch returns before the host and the port are checked
  | blank host after hform hat hclose hblank hafter =>
    obtain ⟨port, hport⟩ : ∃ port, (after = [] ∧ port = defaultPort) ∨
        ∃ number, after = ':' :: number ∧ parseU16 number = .ok port := by
      rcases hafter with hnone | ⟨number, n, hnumber, hn⟩
      · exact ⟨defaultPort, .inl ⟨hnone, rfl⟩⟩
      · exact ⟨UInt16.ofNat n, .inr ⟨number, hnumber, parseU16_iff.mpr ⟨n, hn, rfl⟩⟩⟩
    refine ⟨host, port, parseAuthority_eq_ok.mpr ⟨hat, .bracketed _ hform
      (parseBracketed_eq_ok.mpr ⟨after, rfl, hclose, hport⟩)⟩, ?_⟩
    intro hwell
    rcases hblank with hnil | hspace
    · exact hwell.nonempty hnil
    · exact hspace hwell.space
  | badPort host number n hform hat hclose hnumber hbad =>
    refine ⟨host, UInt16.ofNat n, parseAuthority_eq_ok.mpr ⟨hat, .bracketed _ hform
      (parseBracketed_eq_ok.mpr ⟨_, rfl, hclose,
        .inr ⟨number, rfl, parseU16_iff.mpr ⟨n, hnumber, rfl⟩⟩⟩)⟩, ?_⟩
    intro hwell
    rcases hbad with hsign | rfl
    · obtain ⟨digits, rfl⟩ := List.head?_eq_some_iff.mp hsign
      obtain ⟨digits', hsame, hdigits', -⟩ := Str.parseUnsigned_eq_some.mp hnumber
      have hdigits : Str.IsDigits digits := by
        rcases hsame with rfl | hsame
        · exact absurd List.mem_cons_self (hdigits'.not_mem (by decide))
        · exact (List.cons.inj hsame).2 ▸ hdigits'
      exact not_form_of_sign hdigits (hform ▸ hwell.form)
    · exact hwell.port_ne_zero rfl

end wellFormed

/-- **`parse_authority` accepts well-formed authorities only, exactly** where the
    authority is of none of these kinds. -/
theorem parseAuthority_wellFormed_exact (authority : Text) (defaultPort : UInt16)
    (hdefault : defaultPort ≠ 0) :
    (∀ host port, parseAuthority authority defaultPort = .ok (host, port) →
      WellFormed defaultPort host port authority) ↔ ¬ Malformed authority := by
  constructor
  · intro hclaim hmalformed
    obtain ⟨host, port, hparse, hnot⟩ := accepts_of_malformed hdefault hmalformed
    exact hnot (hclaim host port hparse)
  · intro hnot host port hparse
    obtain ⟨hat, haccepts⟩ := parseAuthority_eq_ok.mp hparse
    exact wellFormed_of_accepts hdefault hat haccepts hnot

/-- It is not where the port is no number. -/
theorem parseAuthority_wellFormed_example :
    ¬ ∀ host port, parseAuthority "a.example:http".toList 80 = .ok (host, port) →
      WellFormed 80 host port "a.example:http".toList := by
  have hends : ¬ EndsWithPort "a.example:http".toList := by
    intro ⟨host, digits, hform, hdigits⟩
    have hcut := rsplitOnce_digits hdigits host
    rw [← hform] at hcut
    have hhttp : digits = "http".toList := congrArg Prod.snd (Option.some.inj hcut.symm)
    have hdigit := hdigits.2 'h' (hhttp ▸ List.mem_cons_self)
    cases hdigit
  have hmalformed : Malformed "a.example:http".toList :=
    .noNumber (by decide) (by decide) (List.all_iff_forall_prop.mp rfl) (by decide) hends
  intro hclaim
  exact (parseAuthority_wellFormed_exact _ 80 (by decide)).mp hclaim hmalformed

/-- A host with a port that is no number is let in, with the default port. -/
theorem malformed_let_in :
    ¬ ∀ (authority : Text) (defaultPort : UInt16), defaultPort ≠ 0 →
      ∀ host port, parseAuthority authority defaultPort = .ok (host, port) →
        WellFormed defaultPort host port authority := by
  intro hclaim
  have hwell := hclaim "a.example:http".toList 80 (by decide) "a.example:http".toList 80 (by decide)
  cases hwell.form with
  | name hform hcolon hport => exact hcolon (by decide)
  | nameWithPort digits hform hcolon hdigits hport => exact hcolon (by decide)
  | literal hform hport => cases hform
  | literalWithPort digits hform hdigits hport => cases hform

/-! ## Formatting -/

/-- `format!("{host}:{port}")`. -/
def withPort (host : Text) (port : UInt16) : Text := host ++ ':' :: (toString port.toNat).toList

/-- `format!("[{host}]")`. -/
def inBrackets (host : Text) : Text := '[' :: host ++ [']']

/-- A port is read back. -/
theorem isDigits_port (port : UInt16) :
    Str.IsDigits (toString port.toNat).toList ∧
      Str.decimal (toString port.toNat).toList = port.toNat := by
  rw [Nat.toString_eq_repr, Nat.toList_repr]
  exact Str.decimal_toDigits port.toNat

/-- A host that can stand without brackets. -/
structure IsName (host : Text) : Prop where
  nonempty : host ≠ []
  colon : ':' ∉ host
  at_sign : '@' ∉ host
  space : NoSpace host
  bracket : host.head? ≠ some '['

/-- A host that can stand in brackets. -/
structure IsLiteral (host : Text) : Prop where
  nonempty : host ≠ []
  close : ']' ∉ host
  at_sign : '@' ∉ host

section formatting
variable {host : Text} {defaultPort port : UInt16}

theorem ne_bracket_of_head {t : Text} (h : t.head? ≠ some '[') (rest : Text) : t ≠ '[' :: rest := by
  rintro rfl
  exact h rfl

/-- **A host with its port** is read back, whatever colons it has. -/
theorem parseAuthority_withPort (hnonempty : host ≠ []) (hat : '@' ∉ host) (hspace : NoSpace host)
    (hbracket : host.head? ≠ some '[') (hport : port ≠ 0) :
    parseAuthority (withPort host port) defaultPort = .ok (host, port) := by
  obtain ⟨hdigits, hvalue⟩ := isDigits_port port
  have hsign : '@' ∉ withPort host port := by
    intro hmem
    rcases List.mem_append.mp hmem with hmem | hmem
    · exact hat hmem
    · rcases List.mem_cons.mp hmem with heq | hmem
      · cases heq
      · exact hdigits.not_mem (by decide) hmem
  have hhead : (withPort host port).head? ≠ some '[' := by
    rwa [withPort, List.head?_append_of_ne_nil _ hnonempty]
  refine parseAuthority_eq_ok.mpr ⟨hsign, .plain (ne_bracket_of_head hhead) ?_ hnonempty hport hspace⟩
  exact splitAuthority_eq_ok.mpr (.inl ⟨_, rfl, hdigits, hvalue⟩)

/-- **A host without a port** is read back, unless it looks like one with a port. -/
theorem parseAuthority_bare (hnonempty : host ≠ []) (hat : '@' ∉ host) (hspace : NoSpace host)
    (hbracket : host.head? ≠ some '[') (hends : ¬ EndsWithPort host) (hdefault : defaultPort ≠ 0) :
    parseAuthority host defaultPort = .ok (host, defaultPort) := by
  refine parseAuthority_eq_ok.mpr ⟨hat, .plain (ne_bracket_of_head hbracket) ?_ hnonempty hdefault
    hspace⟩
  exact splitAuthority_eq_ok.mpr (.inr ⟨rfl, rfl, hends⟩)

theorem parseAuthority_name (h : IsName host) (hdefault : defaultPort ≠ 0) :
    parseAuthority host defaultPort = .ok (host, defaultPort) := by
  refine parseAuthority_bare h.nonempty h.at_sign h.space h.bracket ?_ hdefault
  rintro ⟨before, digits, rfl, -⟩
  exact h.colon (by simp)

/-- **A host in brackets** is read back, with a port or without. -/
theorem parseAuthority_brackets (h : IsLiteral host) :
    parseAuthority (inBrackets host) defaultPort = .ok (host, defaultPort) ∧
      parseAuthority (withPort (inBrackets host) port) defaultPort = .ok (host, port) := by
  obtain ⟨hdigits, hvalue⟩ := isDigits_port port
  constructor
  · have hat : '@' ∉ inBrackets host := by simp [inBrackets, h.at_sign]
    refine parseAuthority_eq_ok.mpr ⟨hat, .bracketed _ rfl ?_⟩
    exact parseBracketed_eq_ok.mpr ⟨[], rfl, h.close, .inl ⟨rfl, rfl⟩⟩
  · have hat : '@' ∉ withPort (inBrackets host) port := by
      have hdigit : '@' ∉ (toString port.toNat).toList := hdigits.not_mem (by decide)
      simp only [withPort, inBrackets, List.mem_append, List.mem_cons, not_or]
      exact ⟨⟨⟨by decide, h.at_sign⟩, by decide, List.not_mem_nil⟩, by decide, hdigit⟩
    have hform : withPort (inBrackets host) port =
        '[' :: (host ++ ']' :: ':' :: (toString port.toNat).toList) := by
      simp [withPort, inBrackets]
    refine parseAuthority_eq_ok.mpr ⟨hat, .bracketed _ hform ?_⟩
    refine parseBracketed_eq_ok.mpr ⟨_, rfl, h.close, .inr ⟨_, rfl, ?_⟩⟩
    exact parseU16_eq_ok.mpr ⟨_, .inl rfl, hdigits, hvalue⟩

/-- The text of an IPv6 address can stand in brackets. -/
theorem isLiteral_displayIpv6 (ip : Ipv6Addr) : IsLiteral (IpText.displayIpv6 ip) where
  nonempty := IpText.displayIpv6_ne_nil ip
  close := by
    intro hmem
    rcases IpText.addrChar_displayIpv6 ip _ hmem with hdigit | heq | heq
    · cases hdigit
    · cases heq
    · cases heq
  at_sign := by
    intro hmem
    rcases IpText.addrChar_displayIpv6 ip _ hmem with hdigit | heq | heq
    · cases hdigit
    · cases heq
    · cases heq

end formatting

/-- **`parse_authority` undoes formatting**: a name, an address or any other host is
    read back from its authority, with each port. -/
theorem parseAuthority_format {port defaultPort : UInt16} (hport : port ≠ 0)
    (hdefault : defaultPort ≠ 0) :
    (∀ host, IsName host →
      parseAuthority (withPort host port) defaultPort = .ok (host, port) ∧
        parseAuthority host defaultPort = .ok (host, defaultPort)) ∧
    (∀ host, IsLiteral host →
      parseAuthority (withPort (inBrackets host) port) defaultPort = .ok (host, port) ∧
        parseAuthority (inBrackets host) defaultPort = .ok (host, defaultPort)) ∧
    ∀ ip, IsLiteral (IpText.displayIpv6 ip) := by
  refine ⟨fun host h => ⟨?_, parseAuthority_name h hdefault⟩, fun host h => ?_,
    isLiteral_displayIpv6⟩
  · exact parseAuthority_withPort h.nonempty h.at_sign h.space h.bracket hport
  · exact (parseAuthority_brackets h).symm

/-- A host of digits, and the address `::1`. -/
theorem parseAuthority_format_example :
    parseAuthority "8080:65535".toList 443 = .ok ("8080".toList, 65535) ∧
      parseAuthority "[::1]".toList 443 = .ok ("::1".toList, 443) := by
  have hname : IsName "8080".toList :=
    ⟨by decide, by decide, by decide, List.all_iff_forall_prop.mp rfl, by decide⟩
  have hliteral : IsLiteral "::1".toList := ⟨by decide, by decide, by decide⟩
  obtain ⟨hnames, hliterals, -⟩ :=
    parseAuthority_format (show (65535 : UInt16) ≠ 0 by decide) (show (443 : UInt16) ≠ 0 by decide)
  exact ⟨(hnames _ hname).1, (hliterals _ hliteral).2⟩

/-! ## Absolute URIs -/

/-- The path that is asked for behind the authority, with its query. -/
def pathOf (rest : Text) : Text := if rest.head? = some '/' then rest else '/' :: rest

/-- What is behind the authority of an absolute URI. -/
structure IsRest (rest : Text) : Prop where
  starts : rest = [] ∨ rest.head? = some '/' ∨ rest.head? = some '?'
  fragment : '#' ∉ rest

/-- The URI is read with this host, port and path. -/
def ReadAs (target host : Text) (port : UInt16) (path : Text) : Prop :=
  ∃ uri, parseAbsoluteUri target = .ok uri ∧ uri.host = host ∧ uri.port = some port ∧
    uri.path = path

section uris
variable {scheme authority rest host : Text} {port : UInt16}

/-- The scheme has no colon, so the mark behind it is the first one. -/
theorem splitOnce_scheme (hscheme : Str.eqIgnoreAsciiCase scheme "http".toList = true)
    (rest : Text) :
    Str.splitOnce "://".toList (scheme ++ "://".toList ++ rest) = some (scheme, rest) := by
  have hlower : scheme.map Str.toAsciiLower = "http".toList.map Str.toAsciiLower :=
    eq_of_beq hscheme
  have hcolon : ':' ∉ scheme := by
    intro hmem
    have himage : Str.toAsciiLower ':' ∈ scheme.map Str.toAsciiLower := List.mem_map_of_mem hmem
    rw [hlower] at himage
    exact absurd himage (by decide)
  exact Str.splitOnce_append hcolon ['/', '/'] rest

/-- A query without a path is cut at its first slash, or not at all. -/
theorem cutPath_query (hslash : '/' ∉ authority) (query : Text) :
    (cutPath (authority ++ '?' :: query)).2.length ≤ query.length + 1 := by
  rw [cutPath]
  cases hfind : Str.find '/' (authority ++ '?' :: query) with
  | none => simp
  | some idx =>
    obtain ⟨before, after, hat, rfl⟩ := Str.find_spec hfind
    dsimp only
    rw [hat, List.drop_left]
    rcases Lines.cut_cases hat with ⟨mid, hmid⟩ | ⟨-, hmark, -⟩ | ⟨mid, -, hquery⟩
    · exact absurd (hmid ▸ by simp) hslash
    · cases hmark
    · -- the slash is one of the query
      rw [hquery, List.length_append, List.length_cons]
      omega

/-- A path begins where the authority ends. -/
theorem cutPath_path (hslash : '/' ∉ authority) (hrest : rest.head? ≠ some '?')
    (hstarts : rest = [] ∨ rest.head? = some '/' ∨ rest.head? = some '?') :
    cutPath (authority ++ rest) = (authority, pathOf rest) := by
  rcases hstarts with rfl | hpath | hquery
  · rw [List.append_nil, cutPath, Str.find_eq_none hslash]
    rfl
  · obtain ⟨path, rfl⟩ := List.head?_eq_some_iff.mp hpath
    rw [cutPath, Str.find_append hslash, pathOf, if_pos hpath]
    dsimp only
    rw [List.take_left, List.drop_left]
  · exact absurd hquery hrest

end uris

/-- **Absolute URIs are split where the authority ends, exactly** where no query
    follows it at once. -/
theorem parseAbsoluteUri_split_exact {scheme authority rest host : Text} {port : UInt16}
    (hscheme : Str.eqIgnoreAsciiCase scheme "http".toList = true)
    (hmarks : '/' ∉ authority ∧ '?' ∉ authority ∧ '#' ∉ authority)
    (hauthority : parseAuthority authority 80 = .ok (host, port)) (hrest : IsRest rest) :
    ReadAs (scheme ++ "://".toList ++ (authority ++ rest)) host port (pathOf rest) ↔
      rest.head? ≠ some '?' := by
  constructor
  · intro ⟨uri, huri, _, _, hpath⟩ hquery
    obtain ⟨query, rfl⟩ := List.head?_eq_some_iff.mp hquery
    obtain ⟨scheme', rest', _, _, hsplit, -, -, rfl⟩ := parseAbsoluteUri_eq_ok.mp huri
    rw [splitOnce_scheme hscheme, Option.some.injEq] at hsplit
    obtain ⟨-, rfl⟩ := Prod.mk.inj hsplit
    -- the path that is read is too short
    have hshort := cutPath_query hmarks.1 query
    have hlong : (cutPath (authority ++ '?' :: query)).2 = '/' :: '?' :: query := hpath
    rw [hlong, List.length_cons, List.length_cons] at hshort
    omega
  · intro hquery
    have hcut := cutPath_path hmarks.1 hquery hrest.starts
    refine ⟨⟨scheme.map Str.toAsciiLower, host, some port, pathOf rest⟩, ?_, rfl, rfl, rfl⟩
    refine parseAbsoluteUri_eq_ok.mpr ⟨scheme, authority ++ rest, host, port,
      splitOnce_scheme hscheme _, hscheme, ?_, ?_⟩
    · rw [hcut]
      exact hauthority
    · rw [hcut]

/-- A path is split off, a query is not. -/
theorem parseAbsoluteUri_split_example :
    ReadAs "HTTP://a.example:81/x?u=http://b".toList "a.example".toList 81
        "/x?u=http://b".toList ∧
      ¬ ReadAs "http://a.example?x=1".toList "a.example".toList 80 "/?x=1".toList := by
  have hscheme : Str.eqIgnoreAsciiCase "HTTP".toList "http".toList = true := by decide
  have hscheme' : Str.eqIgnoreAsciiCase "http".toList "http".toList = true := by decide
  have hmarks : '/' ∉ "a.example:81".toList ∧ '?' ∉ "a.example:81".toList ∧
      '#' ∉ "a.example:81".toList := by decide
  have hmarks' : '/' ∉ "a.example".toList ∧ '?' ∉ "a.example".toList ∧
      '#' ∉ "a.example".toList := by decide
  have hpath : IsRest "/x?u=http://b".toList := ⟨by decide, by decide⟩
  have hquery : IsRest "?x=1".toList := ⟨by decide, by decide⟩
  constructor
  · exact (parseAbsoluteUri_split_exact hscheme hmarks (by decide) hpath).mpr (by decide)
  · intro h
    exact (parseAbsoluteUri_split_exact hscheme' hmarks' (by decide) hquery).mp h (by decide)

/-- The query of a URI without a path becomes part of the host. -/
theorem query_dialled :
    ¬ ∀ (scheme authority rest host : Text) (port : UInt16),
      Str.eqIgnoreAsciiCase scheme "http".toList = true →
      ('/' ∉ authority ∧ '?' ∉ authority ∧ '#' ∉ authority) →
      parseAuthority authority 80 = .ok (host, port) → IsRest rest →
      ReadAs (scheme ++ "://".toList ++ (authority ++ rest)) host port (pathOf rest) := by
  intro hclaim
  obtain ⟨uri, huri, hhost, -⟩ := hclaim "http".toList "a.example".toList "?x=1".toList
    "a.example".toList 80 (by decide) (by decide) (by decide) ⟨by decide, by decide⟩
  have hread : parseAbsoluteUri ("http".toList ++ "://".toList ++ ("a.example".toList ++
      "?x=1".toList)) = .ok ⟨"http".toList, "a.example?x=1".toList, some 80, "/".toList⟩ := by decide
  obtain rfl := Except.ok.inj (hread.symm.trans huri)
  exact absurd hhost (by decide)

end Http

end EchProxy
