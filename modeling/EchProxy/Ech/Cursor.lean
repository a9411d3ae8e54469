import EchProxy.Ech.Encoding

/-! # The Cursor of the Name Walker (`skip_name_inner`)

    The walker is given `offset: &mut usize` and moves it on.  Here the offset
    is the state of the computation, so that what a failed call leaves behind
    is a value of the model.  The offset is assigned only where the walker
    returns, which makes a call the function of `Response` with its result
    committed; what it accepts is then read off the grammar of names.
-/

namespace EchProxy

namespace Ech

open Checked

variable {w : Width}

/-! ## The walker -/

/-- A computation that may move the offset it is given. -/
abbrev Cursor (α : Type) := ExceptT Fault (StateM Nat) α

/-- The result of a call, and where the offset stands after it. -/
def Cursor.call {α : Type} (x : Cursor α) (offset : Nat) : Eval α × Nat :=
  x.run.run offset

/-- The loop of `skip_name_inner`, from position `pos`. -/
def Cursor.skipNameLoop (message : Slice w) (stop : Nat) : Nat → Nat → Cursor Unit
  | 0, _ => throw .diverged
  | fuel + 1, pos =>
    if pos ≥ stop ∨ pos ≥ message.data.length then bail (α := Unit) "truncated DNS name" else do
    let len ← index message.data pos
    if len &&& 0xc0 = 0xc0 then do
      let next ← add w pos 1
      if next ≥ stop ∨ next ≥ message.data.length then
        bail (α := Unit) "truncated DNS compression pointer"
      else do
        let next ← add w pos 2
        set next
    else if len &&& 0xc0 ≠ 0 then bail (α := Unit) "unsupported DNS label type" else do
    let pos ← add w pos 1
    if len = 0 then set pos else do
    let pos ← context "DNS label length overflow" (checkedAdd w pos len.toNat)
    Cursor.skipNameLoop message stop fuel pos

def Cursor.skipNameInner (message : Slice w) (stop : Nat) : Cursor Unit := do
  let pos ← get
  Cursor.skipNameLoop message stop (message.data.length + 1) pos

/-- A result that becomes the offset if it is one, and leaves it alone if it is
    not. -/
def commit (result : Eval Nat) (offset : Nat) : Eval Unit × Nat :=
  match result with
  | .ok next => (.ok (), next)
  | .error fault => (.error fault, offset)

theorem call_set (next offset : Nat) :
    (set next : Cursor Unit).call offset = commit (.ok next) offset := rfl

theorem call_bail (msg : String) (offset : Nat) :
    (liftM (bail (α := Unit) msg) : Cursor Unit).call offset = commit (bail msg) offset := rfl

/-- A step that does not touch the offset, followed by the rest. -/
theorem call_bind {α : Type} {x : Eval α} {f : α → Cursor Unit} {g : α → Eval Nat} {offset : Nat}
    (h : ∀ a, (f a).call offset = commit (g a) offset) :
    (liftM x >>= f : Cursor Unit).call offset = commit (x >>= g) offset := by
  cases x with
  | error fault => rfl
  | ok a => exact h a

/-- The loop assigns the offset where it returns, and nowhere else. -/
theorem call_skipNameLoop (message : Slice w) (stop offset : Nat) (fuel pos : Nat) :
    (Cursor.skipNameLoop message stop fuel pos).call offset =
      commit (skipNameLoop message stop fuel pos) offset := by
  induction fuel generalizing pos with
  | zero => rfl
  | succ fuel ih =>
    rw [Cursor.skipNameLoop, skipNameLoop]
    by_cases hin : pos ≥ stop ∨ pos ≥ message.data.length
    · rw [if_pos hin, if_pos hin]
      exact call_bail _ offset
    rw [if_neg hin, if_neg hin]
    apply call_bind
    intro len
    -- a pointer, a mix of the two top bits, or a label
    by_cases hptr : len &&& 0xc0 = 0xc0
    · rw [if_pos hptr, if_pos hptr]
      apply call_bind
      intro next
      by_cases hnext : next ≥ stop ∨ next ≥ message.data.length
      · rw [if_pos hnext, if_pos hnext]
        exact call_bail _ offset
      · rw [if_neg hnext, if_neg hnext]
        have hset := call_bind (x := add w pos 2) (g := pure) fun next => call_set next offset
        rwa [bind_pure] at hset
    rw [if_neg hptr, if_neg hptr]
    by_cases hbits : len &&& 0xc0 ≠ 0
    · rw [if_pos hbits, if_pos hbits]
      exact call_bail _ offset
    rw [if_neg hbits, if_neg hbits]
    apply call_bind
    intro next
    by_cases hzero : len = 0
    · rw [if_pos hzero, if_pos hzero]
      exact call_set next offset
    · rw [if_neg hzero, if_neg hzero]
      apply call_bind
      intro next
      exact ih next

theorem call_skipNameInner (message : Slice w) (stop offset : Nat) :
    (Cursor.skipNameInner message stop).call offset =
      commit (skipNameInner message offset stop) offset :=
  call_skipNameLoop message stop offset _ offset

/-! ## The bytes of a name -/

section bytes
variable {message : Bytes} {pos : Nat}

theorem Stands.append {xs ys : Bytes} (hxs : Stands message pos xs)
    (hys : Stands message (pos + xs.length) ys) : Stands message pos (xs ++ ys) := by
  obtain ⟨before, after, rfl, rfl⟩ := hxs
  obtain ⟨before', after', heq, hlen⟩ := hys
  -- the two ways to cut the message agree on its first part
  have hcut : before ++ xs = before' := by
    rw [← List.append_assoc] at heq
    exact List.append_inj_left heq (by simp [hlen])
  refine ⟨before, after', ?_, rfl⟩
  rw [heq, ← hcut]
  simp

theorem stands_byte {b : UInt8} (h : message[pos]? = some b) : Stands message pos [b] := by
  obtain ⟨hlt, rfl⟩ := List.getElem?_eq_some_iff.mp h
  refine ⟨message.take pos, message.drop (pos + 1), ?_, List.length_take_of_le (Nat.le_of_lt hlt)⟩
  rw [List.singleton_append, ← List.drop_eq_getElem_cons hlt, List.take_append_drop]

theorem Stands.cons {b : UInt8} {bs : Bytes} (hb : message[pos]? = some b)
    (hbs : Stands message (pos + 1) bs) : Stands message pos (b :: bs) :=
  (stands_byte hb).append hbs

/-- What stands in a message at a position, as far as the message goes. -/
theorem stands_slice {n : Nat} (h : pos + n ≤ message.length) :
    Stands message pos ((message.drop pos).take n) := by
  refine ⟨message.take pos, message.drop (pos + n), ?_, List.length_take_of_le (by omega)⟩
  rw [← List.drop_drop, List.take_append_drop, List.take_append_drop]

end bytes

/-- **A name of the grammar is an encoded name**: the converse of
    `nameAt_of_stands`. -/
theorem NameAt.stands {message : Bytes} {stop pos next : Nat} (h : NameAt message stop pos next) :
    ∃ name : WireName, Stands message pos name.encode ∧ next = pos + name.encode.length := by
  induction h with
  | root _ hbyte => exact ⟨⟨[], .root⟩, stands_byte hbyte, rfl⟩
  | @pointer pos b hbyte htop _ hlen =>
    have hsecond := stands_byte (List.getElem?_eq_getElem hlen)
    exact ⟨⟨[], .pointer b _ htop⟩, (stands_byte hbyte).append hsecond, rfl⟩
  | @label pos next b hbyte hone hle htail ih =>
    obtain ⟨⟨labels, nameEnd⟩, hstands, hnext⟩ := ih
    have hfits := hstands.fits
    -- the label's bytes lie in the message because the rest of the name does
    have hbytes : Stands message (pos + 1) ((message.drop (pos + 1)).take b.toNat) :=
      stands_slice (by omega)
    have hlength : ((message.drop (pos + 1)).take b.toNat).length = b.toNat := by
      rw [List.length_take, List.length_drop]
      omega
    let l : Label := ⟨(message.drop (pos + 1)).take b.toNat, by omega, by omega⟩
    have hencode : WireName.encode ⟨l :: labels, nameEnd⟩ =
        b :: ((message.drop (pos + 1)).take b.toNat ++ WireName.encode ⟨labels, nameEnd⟩) := by
      rw [WireName.encode_cons, hlength, UInt8.ofNat_toNat]
    refine ⟨⟨l :: labels, nameEnd⟩, ?_, ?_⟩
    · rw [hencode]
      rw [← hlength] at hstands
      exact .cons hbyte (hbytes.append hstands)
    · rw [hencode, List.length_cons, List.length_append, hlength]
      omega

theorem nameAt_iff {message : Bytes} {stop pos next : Nat} :
    NameAt message stop pos next ↔ ∃ name : WireName, Stands message pos name.encode ∧
      next = pos + name.encode.length ∧ next ≤ min stop message.length := by
  constructor
  · intro h
    obtain ⟨-, hstop, hlen⟩ := h.bounds
    obtain ⟨name, hstands, hnext⟩ := h.stands
    exact ⟨name, hstands, hnext, Nat.le_min.mpr ⟨hstop, hlen⟩⟩
  · rintro ⟨name, hstands, rfl, hle⟩
    exact nameAt_of_stands hstands (Nat.le_min.mp hle).1

/-- The walker returns exactly on the names of the grammar. -/
theorem skipNameInner_eq_ok {message : Slice w} {offset stop next : Nat} :
    skipNameInner message offset stop = .ok next ↔ NameAt message.data stop offset next :=
  ⟨(skipNameInner_safe message offset stop).2 next, skipNameInner_ok⟩

/-- **The walker recognises one name**: it returns iff the bytes from the offset
    are a name below the bound and inside the message, and then the offset is
    just after it; a call that ends otherwise ends in an error of the code, with
    the offset where it was.  In particular the loop ends. -/
theorem skipNameInner_recognises (message : Slice w) (start stop : Nat) :
    (∀ offset, (Cursor.skipNameInner message stop).call start = (.ok (), offset) ↔
      ∃ name : WireName, Stands message.data start name.encode ∧
        start + name.encode.length ≤ min stop message.data.length ∧
        offset = start + name.encode.length) ∧
    (∀ offset, (Cursor.skipNameInner message stop).call start = (.ok (), offset) →
      start < offset ∧ offset ≤ stop) ∧
    ∀ fault offset, (Cursor.skipNameInner message stop).call start = (.error fault, offset) →
      offset = start ∧ ∃ msg, fault = .error msg := by
  have hok : ∀ offset, (Cursor.skipNameInner message stop).call start = (.ok (), offset) ↔
      NameAt message.data stop start offset := by
    intro offset
    rw [call_skipNameInner, ← skipNameInner_eq_ok]
    cases skipNameInner message start stop with
    | ok next => simp [commit]
    | error fault => simp [commit]
  refine ⟨?_, ?_, ?_⟩
  · intro offset
    rw [hok, nameAt_iff]
    constructor
    · rintro ⟨name, hstands, rfl, hle⟩
      exact ⟨name, hstands, hle, rfl⟩
    · rintro ⟨name, hstands, hle, rfl⟩
      exact ⟨name, hstands, rfl, hle⟩
  · intro offset hcall
    obtain ⟨hlt, hle, -⟩ := ((hok offset).mp hcall).bounds
    exact ⟨hlt, hle⟩
  · intro fault offset hcall
    rw [call_skipNameInner] at hcall
    have herr := (skipNameInner_safe message start stop).1
    cases hres : skipNameInner message start stop with
    | ok next =>
      rw [hres] at hcall
      cases hcall
    | error fault' =>
      rw [hres] at hcall
      cases hcall
      exact ⟨rfl, herr fault hres⟩

end Ech

end EchProxy
