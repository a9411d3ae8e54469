import EchProxy.Ech.Response

/-! # What the Parser Accepts

    The wire format of a response as relations between the positions of a
    message, written without the parser.  Each function of the parser has two
    specification lemmas: it is `Safe`, and what it returns stands in the
    relation; and when the relation holds, it returns.
-/

namespace EchProxy

namespace Ech

open Checked Result

variable {w : Width}

/-! ## Fields -/

/-- The 16-bit field at a position. -/
def u16At (message : Bytes) (pos : Nat) : Option Nat := do
  return be16 (← message[pos]?) (← message[pos + 1]?)

/-- The 32-bit field at a position. -/
def u32At (message : Bytes) (pos : Nat) : Option Nat := do
  return be32 (← message[pos]?) (← message[pos + 1]?) (← message[pos + 2]?) (← message[pos + 3]?)

theorem u16At_spec {message : Bytes} {pos v : Nat} (h : u16At message pos = some v) :
    ∃ b₀ b₁, message[pos]? = some b₀ ∧ message[pos + 1]? = some b₁ ∧ v = be16 b₀ b₁ := by
  simp only [u16At, Option.bind_eq_bind, Option.bind_eq_some_iff, Option.pure_def,
    Option.some.injEq] at h
  obtain ⟨b₀, h₀, b₁, h₁, rfl⟩ := h
  exact ⟨b₀, b₁, h₀, h₁, rfl⟩

theorem u32At_spec {message : Bytes} {pos v : Nat} (h : u32At message pos = some v) :
    ∃ b₀ b₁ b₂ b₃, message[pos]? = some b₀ ∧ message[pos + 1]? = some b₁ ∧
      message[pos + 2]? = some b₂ ∧ message[pos + 3]? = some b₃ ∧ v = be32 b₀ b₁ b₂ b₃ := by
  simp only [u32At, Option.bind_eq_bind, Option.bind_eq_some_iff, Option.pure_def,
    Option.some.injEq] at h
  obtain ⟨b₀, h₀, b₁, h₁, b₂, h₂, b₃, h₃, rfl⟩ := h
  exact ⟨b₀, b₁, b₂, b₃, h₀, h₁, h₂, h₃, rfl⟩

/-- A field lies inside the message. -/
theorem u16At_fits {message : Bytes} {pos v : Nat} (h : u16At message pos = some v) :
    pos + 2 ≤ message.length ∧ v < 65536 := by
  obtain ⟨b₀, b₁, -, h₁, rfl⟩ := u16At_spec h
  obtain ⟨hlt, -⟩ := List.getElem?_eq_some_iff.mp h₁
  have hb₀ := b₀.toNat_lt
  have hb₁ := b₁.toNat_lt
  refine ⟨by omega, ?_⟩
  rw [be16]
  omega

theorem u32At_fits {message : Bytes} {pos v : Nat} (h : u32At message pos = some v) :
    pos + 4 ≤ message.length := by
  obtain ⟨_, _, _, _, -, -, -, h₃, -⟩ := u32At_spec h
  obtain ⟨hlt, -⟩ := List.getElem?_eq_some_iff.mp h₃
  omega

theorem readU16_safe (message : Slice w) (pos : Nat) :
    Safe (readU16 message pos) fun v => u16At message.data pos = some v := by
  unfold readU16
  refine .bind (P := fun stop => stop = pos + 2) (.checkedAdd _ rfl) ?_
  rintro _ rfl
  refine .bind (P := fun part => getRange message.data pos (pos + 2) = some part)
    (.context _ fun part hpart => hpart) ?_
  intro part hpart
  have hlen := length_of_getRange hpart
  refine .bind (P := fun b => message.data[pos]? = some b) (.index (by omega) fun b hb => ?_) ?_
  · rwa [getElem?_of_getRange hpart (by omega)] at hb
  intro b₀ h₀
  refine .bind (P := fun b => message.data[pos + 1]? = some b) (.index (by omega) fun b hb => ?_) ?_
  · rwa [getElem?_of_getRange hpart (by omega)] at hb
  intro b₁ h₁
  refine .ok ?_
  rw [u16At, h₀, h₁]
  rfl

theorem readU16_ok {message : Slice w} {pos v : Nat} (h : u16At message.data pos = some v) :
    readU16 message pos = .ok v := by
  obtain ⟨hfits, -⟩ := u16At_fits h
  obtain ⟨b₀, b₁, h₀, h₁, rfl⟩ := u16At_spec h
  have hroom := w.room
  have hslice := message.fits
  have hrange := getRange_eq (Nat.le_add_right pos 2) hfits
  rw [readU16, checkedAdd_eq (by omega)]
  simp only [context, ok_bind, hrange]
  rw [index_eq ((getElem?_of_getRange hrange (by omega)).trans h₀),
    index_eq ((getElem?_of_getRange hrange (by omega)).trans h₁)]
  rfl

theorem readU16At_safe (message : Slice w) (pos : Nat) :
    Safe (readU16At message pos) fun r =>
      u16At message.data pos = some r.1 ∧ r.2 = pos + 2 := by
  refine .bind (readU16_safe message pos) fun v hv => ?_
  have hroom := w.room
  have hslice := message.fits
  have hfits := (u16At_fits hv).1
  refine .bind (P := fun next => next = pos + 2) (.add (by omega) rfl) ?_
  rintro _ rfl
  exact .ok ⟨hv, rfl⟩

theorem readU16At_ok {message : Slice w} {pos v : Nat} (h : u16At message.data pos = some v) :
    readU16At message pos = .ok (v, pos + 2) := by
  have hroom := w.room
  have hslice := message.fits
  have hfits := (u16At_fits h).1
  rw [readU16At, readU16_ok h, ok_bind, add_eq (by omega)]
  rfl

theorem readU32At_safe (message : Slice w) (pos : Nat) :
    Safe (readU32At message pos) fun r =>
      u32At message.data pos = some r.1 ∧ r.2 = pos + 4 := by
  unfold readU32At
  refine .bind (P := fun stop => stop = pos + 4) (.checkedAdd _ rfl) ?_
  rintro _ rfl
  refine .bind (P := fun part => getRange message.data pos (pos + 4) = some part)
    (.context _ fun part hpart => hpart) ?_
  intro part hpart
  have hlen := length_of_getRange hpart
  -- the range has four bytes, so none of the four reads can panic
  have hbyte : ∀ i, i < 4 →
      Safe (index part i) fun b => message.data[pos + i]? = some b := by
    intro i hi
    refine .index (by omega) fun b hb => ?_
    rwa [getElem?_of_getRange hpart (by omega)] at hb
  refine .bind (hbyte 0 (by omega)) fun b₀ h₀ => ?_
  refine .bind (hbyte 1 (by omega)) fun b₁ h₁ => ?_
  refine .bind (hbyte 2 (by omega)) fun b₂ h₂ => ?_
  refine .bind (hbyte 3 (by omega)) fun b₃ h₃ => ?_
  refine .ok ⟨?_, rfl⟩
  rw [u32At, h₁, h₂, h₃]
  rw [Nat.add_zero] at h₀
  rw [h₀]
  rfl

theorem readU32At_ok {message : Slice w} {pos v : Nat} (h : u32At message.data pos = some v) :
    readU32At message pos = .ok (v, pos + 4) := by
  have hfits := u32At_fits h
  obtain ⟨b₀, b₁, b₂, b₃, h₀, h₁, h₂, h₃, rfl⟩ := u32At_spec h
  have hroom := w.room
  have hslice := message.fits
  have hrange := getRange_eq (Nat.le_add_right pos 4) hfits
  rw [readU32At, checkedAdd_eq (by omega)]
  simp only [context, ok_bind, hrange]
  rw [index_eq ((getElem?_of_getRange hrange (by omega)).trans h₀),
    index_eq ((getElem?_of_getRange hrange (by omega)).trans h₁),
    index_eq ((getElem?_of_getRange hrange (by omega)).trans h₂),
    index_eq ((getElem?_of_getRange hrange (by omega)).trans h₃)]
  rfl

theorem skipBytes_safe (message : Slice w) (pos count : Nat) :
    Safe (skipBytes message pos count) fun next =>
      next = pos + count ∧ next ≤ message.data.length := by
  unfold skipBytes
  refine .bind (P := fun stop => stop = pos + count) (.checkedAdd _ rfl) ?_
  rintro _ rfl
  exact .guard fun hle => .ok ⟨rfl, Nat.le_of_not_lt hle⟩

theorem skipBytes_ok {message : Slice w} {pos count : Nat}
    (h : pos + count ≤ message.data.length) : skipBytes message pos count = .ok (pos + count) := by
  have hroom := w.room
  have hslice := message.fits
  rw [skipBytes, checkedAdd_eq (by omega)]
  simp only [context, ok_bind]
  exact if_neg (Nat.not_lt.mpr h)

/-! ## Names -/

/-- A name between two positions, all of it below `stop`: labels of 1 to 63
    bytes, then a zero byte or a compression pointer. -/
inductive NameAt (message : Bytes) (stop : Nat) : Nat → Nat → Prop where
  | root {pos : Nat} : pos < stop → message[pos]? = some 0 → NameAt message stop pos (pos + 1)
  | pointer {pos : Nat} {b : UInt8} : message[pos]? = some b → b &&& 0xc0 = 0xc0 →
      pos + 1 < stop → pos + 1 < message.length → NameAt message stop pos (pos + 2)
  | label {pos next : Nat} {b : UInt8} : message[pos]? = some b → 1 ≤ b.toNat → b.toNat ≤ 63 →
      NameAt message stop (pos + 1 + b.toNat) next → NameAt message stop pos next

theorem NameAt.bounds {message : Bytes} {stop pos next : Nat} (h : NameAt message stop pos next) :
    pos < next ∧ next ≤ stop ∧ next ≤ message.length := by
  induction h with
  | root hlt hbyte =>
    obtain ⟨hlen, -⟩ := List.getElem?_eq_some_iff.mp hbyte
    omega
  | pointer _ _ hstop hlen => omega
  | label _ _ _ _ ih => omega

/-- The two top bits of a length byte are clear iff it is at most 63. -/
theorem label_length (b : UInt8) : b &&& 0xc0 = 0 ↔ b.toNat ≤ 63 := by
  have hall : ∀ n : Fin 256, (n.val &&& 0xc0 = 0) ↔ n.val ≤ 63 := by decide +kernel
  rw [← UInt8.toNat_inj, UInt8.toNat_and]
  exact hall ⟨b.toNat, b.toNat_lt⟩

theorem byte_zero (b : UInt8) : b = 0 ↔ b.toNat = 0 := by
  rw [← UInt8.toNat_inj]
  rfl

theorem skipNameLoop_safe (message : Slice w) (stop : Nat) :
    ∀ (fuel pos : Nat), message.data.length - pos < fuel →
      Safe (skipNameLoop message stop fuel pos) fun next =>
        NameAt message.data stop pos next := by
  intro fuel
  -- a label takes the walker at least two bytes on, so the fuel outlasts the message
  induction fuel with
  | zero =>
    intro pos hfuel
    omega
  | succ fuel ih =>
    intro pos hfuel
    have hroom := w.room
    have hslice := message.fits
    rw [skipNameLoop]
    refine .guard fun hin => ?_
    rw [not_or, Nat.not_le, Nat.not_le] at hin
    obtain ⟨hstop, hlen⟩ := hin
    refine .bind (P := fun b => message.data[pos]? = some b) (.index hlen fun b hb => hb) ?_
    intro b hb
    -- the two top bits tell a pointer from a label; a mix of them is an error
    by_cases hptr : b &&& 0xc0 = 0xc0
    · rw [if_pos hptr]
      refine .bind (P := fun next => next = pos + 1) (.add (by omega) rfl) ?_
      rintro _ rfl
      refine .guard fun hin => ?_
      rw [not_or, Nat.not_le, Nat.not_le] at hin
      exact .add (by omega) (.pointer hb hptr hin.1 hin.2)
    · rw [if_neg hptr]
      refine .guard fun hbits => ?_
      have hle := (label_length b).mp (not_not.mp hbits)
      refine .bind (P := fun next => next = pos + 1) (.add (by omega) rfl) ?_
      rintro _ rfl
      by_cases hzero : b = 0
      · rw [if_pos hzero]
        exact .ok (.root hstop (hzero ▸ hb))
      · rw [if_neg hzero]
        refine .bind (P := fun next => next = pos + 1 + b.toNat) (.checkedAdd _ rfl) ?_
        rintro _ rfl
        refine (ih (pos + 1 + b.toNat) (by omega)).mono fun next hnext => ?_
        exact .label hb (Nat.one_le_iff_ne_zero.mpr (mt (byte_zero b).mpr hzero)) hle hnext

theorem skipNameLoop_ok {message : Slice w} {stop pos next : Nat}
    (h : NameAt message.data stop pos next) :
    ∀ fuel, message.data.length - pos < fuel →
      skipNameLoop message stop fuel pos = .ok next := by
  have hroom := w.room
  have hslice := message.fits
  induction h with
  | @root pos hstop hbyte =>
    intro fuel hfuel
    obtain ⟨hlen, -⟩ := List.getElem?_eq_some_iff.mp hbyte
    cases fuel with
    | zero => omega
    | succ fuel =>
      rw [skipNameLoop, if_neg (by omega), index_eq hbyte]
      simp only [ok_bind]
      rw [add_eq (by omega)]
      rfl
  | @pointer pos b hbyte hptr hstop hlen =>
    intro fuel hfuel
    cases fuel with
    | zero => omega
    | succ fuel =>
      rw [skipNameLoop, if_neg (by omega), index_eq hbyte]
      simp only [ok_bind]
      rw [if_pos hptr, add_eq (by omega), ok_bind, if_neg (by omega), add_eq (by omega)]
  | @label pos next b hbyte hone hle htail ih =>
    intro fuel hfuel
    obtain ⟨hlen, -⟩ := List.getElem?_eq_some_iff.mp hbyte
    obtain ⟨hlt, hstop, -⟩ := htail.bounds
    have hbits := (label_length b).mpr hle
    have hzero : b ≠ 0 := mt (byte_zero b).mp (by omega)
    have hptr : ¬ b &&& 0xc0 = 0xc0 := by
      rw [hbits]
      decide
    cases fuel with
    | zero => omega
    | succ fuel =>
      rw [skipNameLoop, if_neg (by omega), index_eq hbyte]
      simp only [ok_bind]
      rw [if_neg hptr, if_neg (not_not.mpr hbits), add_eq (by omega), ok_bind, if_neg hzero,
        checkedAdd_eq (by omega)]
      -- the rest of the name is shorter, so there is fuel for it
      exact ih fuel (by omega)

theorem skipNameInner_safe (message : Slice w) (pos stop : Nat) :
    Safe (skipNameInner message pos stop) fun next => NameAt message.data stop pos next :=
  skipNameLoop_safe message stop _ pos (by omega)

theorem skipNameInner_ok {message : Slice w} {stop pos next : Nat}
    (h : NameAt message.data stop pos next) : skipNameInner message pos stop = .ok next :=
  skipNameLoop_ok h _ (by omega)

/-! ## Parameters and RDATA -/

/-- The parameters from a position up to `stop`, and where the value of the
    first `ech` among them stands: its offset and its length. -/
inductive ParamsAt (message : Bytes) (stop : Nat) : Nat → Option (Nat × Nat) → Prop where
  | done {pos : Nat} : stop ≤ pos → ParamsAt message stop pos none
  | ech {pos len : Nat} : pos + 4 + len ≤ stop → u16At message pos = some 5 →
      u16At message (pos + 2) = some len → ParamsAt message stop pos (some (pos + 4, len))
  | other {pos key len : Nat} {r : Option (Nat × Nat)} : pos + 4 + len ≤ stop →
      u16At message pos = some key → key ≠ 5 → u16At message (pos + 2) = some len →
      ParamsAt message stop (pos + 4 + len) r → ParamsAt message stop pos r

/-- Where an `ech` parameter that was found stands. -/
theorem ParamsAt.spec {message : Bytes} {stop pos o len : Nat}
    (h : ParamsAt message stop pos (some (o, len))) :
    pos + 4 ≤ o ∧ o + len ≤ stop ∧ u16At message (o - 4) = some 5 ∧
      u16At message (o - 2) = some len := by
  generalize hr : some (o, len) = r at h
  induction h with
  | done => cases hr
  | @ech pos len' hstop hkey hlen =>
    obtain ⟨rfl, rfl⟩ := Prod.mk.inj (Option.some.inj hr)
    exact ⟨Nat.le_refl _, hstop, hkey, hlen⟩
  | other _ _ _ _ _ ih =>
    obtain ⟨hpos, hrest⟩ := ih hr
    exact ⟨by omega, hrest⟩

/-- What the loop returns for the value it found. -/
def valueAt (message : Bytes) : Option (Nat × Nat) → Option Bytes :=
  Option.map fun (o, len) => (message.drop o).take len

theorem paramsLoop_safe (message : Slice w) {stop : Nat} (hstop : stop ≤ message.data.length) :
    ∀ (fuel pos : Nat), stop - pos < fuel →
      Safe (paramsLoop message stop fuel pos) fun r =>
        ∃ found, ParamsAt message.data stop pos found ∧ r = valueAt message.data found := by
  intro fuel
  induction fuel with
  | zero =>
    intro pos hfuel
    omega
  | succ fuel ih =>
    intro pos hfuel
    rw [paramsLoop]
    by_cases hpos : pos < stop
    · rw [if_pos hpos]
      -- the subtraction is guarded by the loop's own condition
      refine .bind (P := fun left => left = stop - pos) (.sub (by omega) rfl) ?_
      rintro _ rfl
      refine .guard fun hleft => ?_
      refine .bind (readU16At_safe message pos) ?_
      rintro ⟨key, next⟩ ⟨hkey, rfl⟩
      refine .bind (readU16At_safe message (pos + 2)) ?_
      rintro ⟨len, next⟩ ⟨hlen, rfl⟩
      refine .bind (P := fun valueEnd => valueEnd = pos + 4 + len) (.checkedAdd _ rfl) ?_
      rintro _ rfl
      refine .guard fun hend => ?_
      have hend' : pos + 4 + len ≤ stop := Nat.le_of_not_lt hend
      -- the first parameter with this key ends the search
      by_cases hech : key = 5
      · rw [if_pos hech]
        rw [hech] at hkey
        refine .bind (P := fun value => value = (message.data.drop (pos + 4)).take len)
          (.slice (by omega) (by omega) ?_) ?_
        · rw [Nat.add_sub_cancel_left]
        · rintro _ rfl
          exact .ok ⟨some (pos + 4, len), .ech hend' hkey hlen, rfl⟩
      · rw [if_neg hech]
        refine (ih (pos + 4 + len) (by omega)).mono ?_
        intro r ⟨found, hfound, hr⟩
        exact ⟨found, .other hend' hkey hech hlen hfound, hr⟩
    · rw [if_neg hpos]
      exact .ok ⟨none, .done (by omega), rfl⟩

/-- A parameter is taken or passed over. -/
theorem paramsLoop_param {message : Slice w} {stop pos key len : Nat}
    (hstop : stop ≤ message.data.length) (hend : pos + 4 + len ≤ stop)
    (hkey : u16At message.data pos = some key) (hlen : u16At message.data (pos + 2) = some len)
    (fuel : Nat) :
    paramsLoop message stop (fuel + 1) pos =
      if key = 5 then do return some (← slice message.data (pos + 4) (pos + 4 + len))
      else paramsLoop message stop fuel (pos + 4 + len) := by
  have hroom := w.room
  have hslice := message.fits
  rw [paramsLoop, if_pos (by omega), sub_eq (by omega), ok_bind, if_neg (by omega),
    readU16At_ok hkey]
  simp only [ok_bind]
  rw [readU16At_ok hlen]
  simp only [ok_bind]
  rw [checkedAdd_eq (by omega)]
  simp only [context, ok_bind]
  rw [if_neg (by omega)]

theorem paramsLoop_ok {message : Slice w} {stop pos : Nat} {found : Option (Nat × Nat)}
    (hstop : stop ≤ message.data.length) (h : ParamsAt message.data stop pos found) :
    ∀ fuel, stop - pos < fuel →
      paramsLoop message stop fuel pos = .ok (valueAt message.data found) := by
  induction h with
  | @done pos hdone =>
    intro fuel hfuel
    cases fuel with
    | zero => omega
    | succ fuel =>
      rw [paramsLoop, if_neg (by omega)]
      rfl
  | @ech pos len hend hkey hlen =>
    intro fuel hfuel
    cases fuel with
    | zero => omega
    | succ fuel =>
      have hrange := getRange_eq (s := message.data) (Nat.le_add_right (pos + 4) len) (by omega)
      rw [paramsLoop_param hstop hend hkey hlen, if_pos rfl, slice, hrange,
        Nat.add_sub_cancel_left]
      rfl
  | @other pos key len r hend hkey hne hlen _ ih =>
    intro fuel hfuel
    cases fuel with
    | zero => omega
    | succ fuel =>
      rw [paramsLoop_param hstop hend hkey hlen, if_neg hne]
      exact ih fuel (by omega)

/-- The RDATA of an HTTPS record: two bytes of priority, the target name, then
    the parameters. -/
def RdataAt (message : Bytes) (start stop : Nat) (found : Option (Nat × Nat)) : Prop :=
  ∃ next, NameAt message stop (start + 2) next ∧ ParamsAt message stop next found

theorem parseHttpsRdataForEch_safe (message : Slice w) {start stop : Nat}
    (hstop : stop ≤ message.data.length) :
    Safe (parseHttpsRdataForEch message start stop) fun r =>
      ∃ found, RdataAt message.data start stop found ∧ r = valueAt message.data found := by
  unfold parseHttpsRdataForEch
  refine .bind (skipBytes_safe message start 2) ?_
  rintro _ ⟨rfl, -⟩
  refine .bind (skipNameInner_safe message (start + 2) stop) fun next hname => ?_
  refine (paramsLoop_safe message hstop _ next (by omega)).mono ?_
  intro r ⟨found, hfound, hr⟩
  exact ⟨found, ⟨next, hname, hfound⟩, hr⟩

theorem parseHttpsRdataForEch_ok {message : Slice w} {start stop : Nat}
    {found : Option (Nat × Nat)} (hstop : stop ≤ message.data.length)
    (h : RdataAt message.data start stop found) :
    parseHttpsRdataForEch message start stop = .ok (valueAt message.data found) := by
  obtain ⟨next, hname, hparams⟩ := h
  obtain ⟨hlt, hle, -⟩ := hname.bounds
  rw [parseHttpsRdataForEch, skipBytes_ok (by omega), ok_bind, skipNameBounded,
    skipNameInner_ok hname, ok_bind]
  exact paramsLoop_ok hstop hparams _ (by omega)

/-! ## Sections -/

/-- `n` questions between two positions. -/
inductive QuestionsAt (message : Bytes) : Nat → Nat → Nat → Prop where
  | done {pos : Nat} : QuestionsAt message 0 pos pos
  | next {n pos mid stop : Nat} : NameAt message message.length pos mid →
      mid + 4 ≤ message.length → QuestionsAt message n (mid + 4) stop →
      QuestionsAt message (n + 1) pos stop

/-- An answer at a position: its name, type, class, TTL and length, and RDATA
    inside the message. -/
inductive AnswerAt (message : Bytes) : Nat → Answer → Prop where
  | intro {pos mid rrType rrClass ttl rdlen : Nat} : NameAt message message.length pos mid →
      u16At message mid = some rrType → u16At message (mid + 2) = some rrClass →
      u32At message (mid + 4) = some ttl → u16At message (mid + 8) = some rdlen →
      mid + 10 + rdlen ≤ message.length →
      AnswerAt message pos ⟨rrType, ttl, mid + 10, mid + 10 + rdlen⟩

/-- `n` answers between two positions. -/
inductive AnswersAt (message : Bytes) : Nat → Nat → Nat → Prop where
  | done {pos : Nat} : AnswersAt message 0 pos pos
  | next {n pos stop : Nat} {answer : Answer} : AnswerAt message pos answer →
      AnswersAt message n answer.rdataEnd stop → AnswersAt message (n + 1) pos stop

theorem skipQuestions_safe (message : Slice w) (n pos : Nat) :
    Safe (skipQuestions message n pos) fun stop => QuestionsAt message.data n pos stop := by
  induction n generalizing pos with
  | zero => exact .ok .done
  | succ n ih =>
    rw [skipQuestions]
    refine .bind (skipNameInner_safe message pos _) fun mid hname => ?_
    refine .bind (skipBytes_safe message mid 4) ?_
    rintro _ ⟨rfl, hle⟩
    exact (ih (mid + 4)).mono fun stop hstop => .next hname hle hstop

theorem skipQuestions_ok {message : Slice w} {n pos stop : Nat}
    (h : QuestionsAt message.data n pos stop) : skipQuestions message n pos = .ok stop := by
  generalize hdata : message.data = data at h
  induction h with
  | done => rfl
  | next hname hle _ ih =>
    subst hdata
    rw [skipQuestions, skipName, skipNameInner_ok hname, ok_bind, skipBytes_ok hle, ok_bind]
    exact ih

theorem readAnswer_safe (message : Slice w) (pos : Nat) :
    Safe (readAnswer message pos) fun answer => AnswerAt message.data pos answer := by
  unfold readAnswer
  refine .bind (skipNameInner_safe message pos _) fun mid hname => ?_
  refine .bind (readU16At_safe message mid) ?_
  rintro ⟨rrType, _⟩ ⟨htype, rfl⟩
  refine .bind (readU16At_safe message (mid + 2)) ?_
  rintro ⟨rrClass, _⟩ ⟨hclass, rfl⟩
  refine .bind (readU32At_safe message (mid + 4)) ?_
  rintro ⟨ttl, _⟩ ⟨httl, rfl⟩
  refine .bind (readU16At_safe message (mid + 8)) ?_
  rintro ⟨rdlen, _⟩ ⟨hrdlen, rfl⟩
  refine .bind (P := fun stop => stop = mid + 10 + rdlen) (.checkedAdd _ rfl) ?_
  rintro _ rfl
  exact .guard fun hle =>
    .ok (.intro hname htype hclass httl hrdlen (Nat.le_of_not_lt hle))

theorem readAnswer_ok {message : Slice w} {pos : Nat} {answer : Answer}
    (h : AnswerAt message.data pos answer) : readAnswer message pos = .ok answer := by
  have hroom := w.room
  have hslice := message.fits
  obtain ⟨hname, htype, hclass, httl, hrdlen, hle⟩ := h
  rw [readAnswer, skipName, skipNameInner_ok hname, ok_bind, readU16At_ok htype]
  simp only [ok_bind]
  rw [readU16At_ok hclass]
  simp only [ok_bind]
  rw [readU32At_ok httl]
  simp only [ok_bind]
  rw [readU16At_ok hrdlen]
  simp only [ok_bind]
  rw [checkedAdd_eq (by omega)]
  simp only [context, ok_bind]
  exact if_neg (Nat.not_lt.mpr hle)

/-- The TTL of a result: 300 seconds stand in for zero. -/
def resultTtl (ttl : Nat) : Nat := if ttl = 0 then defaultEchCacheTtl else ttl

theorem resultTtl_pos (ttl : Nat) : 1 ≤ resultTtl ttl := by
  unfold resultTtl
  split
  · decide
  · omega

/-- An answer of the section with an `ech` parameter at `o`. -/
structure EchIn (message : Bytes) (n pos : Nat) (ech : Bytes) (answer : Answer) (o : Nat) :
    Prop where
  walked : ∃ k start, k < n ∧ AnswersAt message k pos start ∧ AnswerAt message start answer
  https : answer.rrType = httpsType
  rdata : RdataAt message answer.rdataStart answer.rdataEnd (some (o, ech.length))
  value : ech = (message.drop o).take ech.length

theorem searchAnswers_safe (message : Slice w) (n pos : Nat) :
    Safe (searchAnswers message n pos) fun r =>
      ∃ answer o, EchIn message.data n pos r.1 answer o ∧ r.2 = resultTtl answer.ttl := by
  induction n generalizing pos with
  | zero => exact .bail _
  | succ n ih =>
    rw [searchAnswers]
    refine .bind (readAnswer_safe message pos) fun answer hanswer => ?_
    have hend : answer.rdataEnd ≤ message.data.length := by
      cases hanswer
      assumption
    -- an answer found further on is one more answer away
    have hlater : Safe (searchAnswers message n answer.rdataEnd) fun r =>
        ∃ later o, EchIn message.data (n + 1) pos r.1 later o ∧ r.2 = resultTtl later.ttl := by
      refine (ih answer.rdataEnd).mono ?_
      intro r ⟨later, o, ⟨⟨k, start, hk, hwalk, hlater⟩, htype, hrdata, hvalue⟩, httl⟩
      exact ⟨later, o, ⟨⟨k + 1, start, by omega, .next hanswer hwalk, hlater⟩, htype, hrdata,
        hvalue⟩, httl⟩
    by_cases htype : answer.rrType = httpsType
    · rw [if_pos htype]
      refine .bind (parseHttpsRdataForEch_safe message hend) ?_
      rintro r ⟨found, hrdata, rfl⟩
      cases found with
      | none => exact hlater
      | some found =>
        obtain ⟨o, len⟩ := found
        obtain ⟨next, hname, hparams⟩ := hrdata
        obtain ⟨-, hfits, -, -⟩ := hparams.spec
        have hlen : ((message.data.drop o).take len).length = len := by
          rw [List.length_take, List.length_drop]
          omega
        refine .ok ⟨answer, o, ⟨⟨0, pos, Nat.succ_pos n, .done, hanswer⟩, htype, ?_, ?_⟩, rfl⟩
        · rw [hlen]
          exact ⟨next, hname, hparams⟩
        · rw [hlen]
    · rw [if_neg htype]
      exact hlater

/-! ## Safety and soundness of the parser -/

/-- The parser has no fault, and what it returns is the value of a parameter 5 in
    an answer of the message. -/
theorem parseHttpsResponseForEch_safe (message : Slice w) :
    Safe (parseHttpsResponseForEch message) fun r => 1 ≤ r.2 ∧
      ∃ qdcount ancount start answer o,
        u16At message.data 4 = some qdcount ∧ u16At message.data 6 = some ancount ∧
        QuestionsAt message.data qdcount 12 start ∧
        EchIn message.data ancount start r.1 answer o := by
  unfold parseHttpsResponseForEch
  refine .guard fun _ => ?_
  refine .bind (readU16_safe message 2) fun flags _ => ?_
  refine .guard fun _ => .guard fun _ => ?_
  refine .bind (readU16_safe message 4) fun qdcount hqd => ?_
  refine .bind (readU16_safe message 6) fun ancount han => ?_
  refine .bind (skipQuestions_safe message qdcount 12) fun start hquestions => ?_
  refine (searchAnswers_safe message ancount start).mono ?_
  intro r ⟨answer, o, hech, httl⟩
  exact ⟨httl ▸ resultTtl_pos _, qdcount, ancount, start, answer, o, hqd, han, hquestions, hech⟩

/-- **The parser is safe and sound** on every message: it ends without a panic
    or an endless loop, and what it returns is the value of a parameter 5 of an
    HTTPS answer that is reached from offset 12, with a TTL of a second at
    least. -/
theorem parse_safe_sound (message : Slice w) :
    (∀ fault, parseHttpsResponseForEch message = .error fault → ∃ msg, fault = .error msg) ∧
    ∀ ech ttl, parseHttpsResponseForEch message = .ok (ech, ttl) → 1 ≤ ttl ∧
      ∃ qdcount ancount start k pos answer o,
        u16At message.data 4 = some qdcount ∧ u16At message.data 6 = some ancount ∧
        QuestionsAt message.data qdcount 12 start ∧
        k < ancount ∧ AnswersAt message.data k start pos ∧ AnswerAt message.data pos answer ∧
        answer.rrType = 65 ∧ answer.rdataEnd ≤ message.data.length ∧
        answer.rdataStart + 3 ≤ o - 4 ∧ o + ech.length ≤ answer.rdataEnd ∧
        u16At message.data (o - 4) = some 0x0005 ∧ u16At message.data (o - 2) = some ech.length ∧
        ech = (message.data.drop o).take ech.length := by
  have hsafe := parseHttpsResponseForEch_safe message
  refine ⟨hsafe.1, fun ech ttl hok => ?_⟩
  obtain ⟨httl, qdcount, ancount, start, answer, o, hqd, han, hquestions,
    ⟨k, pos, hk, hwalk, hanswer⟩, htype, ⟨next, hname, hparams⟩, hvalue⟩ := hsafe.2 _ hok
  obtain ⟨hpos, hfits, hkey, hlen⟩ := hparams.spec
  obtain ⟨hlt, -, -⟩ := hname.bounds
  -- the bound on the record's end is a premise of its rule
  have hend : answer.rdataEnd ≤ message.data.length := by
    cases hanswer
    assumption
  exact ⟨httl, qdcount, ancount, start, k, pos, answer, o, hqd, han, hquestions, hk, hwalk,
    hanswer, htype, hend, by omega, hfits, hkey, hlen, hvalue⟩

/-- A response with one answer: no name, type 65, TTL 0, and RDATA with
    priority 1, no target name and the parameter 5 = `aa bb`. -/
def exampleMessage : Slice .bits64 where
  data :=
    [0x45, 0x43, 0x81, 0x80, 0, 0, 0, 1, 0, 0, 0, 0,
      0, 0, 65, 0, 1, 0, 0, 0, 0, 0, 9, 0, 1, 0, 0, 5, 0, 2, 0xaa, 0xbb]
  fits := by decide

theorem parse_safe_sound_example :
    parseHttpsResponseForEch exampleMessage = .ok ([0xaa, 0xbb], 300) ∧
      ∃ pos answer, AnswerAt exampleMessage.data pos answer ∧ answer.rrType = 65 := by
  have hparse : parseHttpsResponseForEch exampleMessage = .ok ([0xaa, 0xbb], 300) := by
    decide +kernel
  obtain ⟨-, _, _, _, _, pos, answer, _, -, -, -, -, -, hanswer, htype, -⟩ :=
    (parse_safe_sound exampleMessage).2 _ _ hparse
  exact ⟨hparse, pos, answer, hanswer, htype⟩

end Ech

end EchProxy
