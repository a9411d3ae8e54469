import EchProxy.Ech.Encoding
import EchProxy.Ech.Query

/-! # The Name in the Query

    The query is read back by the walker that skips the names of a response.
    The walker is given a record of the labels it passes over, so that the
    name in the query can be compared with the one that was asked for.
-/

namespace EchProxy

namespace Ech

open Checked Result

variable {w : Width}

/-! ## The walker with a record -/

/-- A label as it is passed over: its length byte and the bytes behind it. -/
abbrev Passed := UInt8 × Bytes

/-- The loop of `skip_name_inner`, which also says what it passes over. -/
def passNameLoop (message : Slice w) (stop : Nat) : Nat → Nat → Eval (List Passed × Nat)
  | 0, _ => .error .diverged
  | fuel + 1, pos =>
    if pos ≥ stop ∨ pos ≥ message.data.length then bail "truncated DNS name" else do
    let len ← index message.data pos
    if len &&& 0xc0 = 0xc0 then do
      let next ← add w pos 1
      if next ≥ stop ∨ next ≥ message.data.length then
        bail "truncated DNS compression pointer"
      else do
        let next ← add w pos 2
        return ([], next)
    else if len &&& 0xc0 ≠ 0 then bail "unsupported DNS label type" else do
    let pos ← add w pos 1
    if len = 0 then return ([], pos) else do
    let next ← context "DNS label length overflow" (checkedAdd w pos len.toNat)
    let (labels, next) ← passNameLoop message stop fuel next
    return ((len, (message.data.drop pos).take len.toNat) :: labels, next)

def passName (message : Slice w) (offset stop : Nat) : Eval (List Passed × Nat) :=
  passNameLoop message stop (message.data.length + 1) offset

/-- The record changes nothing. -/
theorem passNameLoop_next (message : Slice w) (stop fuel pos : Nat) :
    (passNameLoop message stop fuel pos).map Prod.snd = skipNameLoop message stop fuel pos := by
  induction fuel generalizing pos with
  | zero => rfl
  | succ fuel ih =>
    rw [passNameLoop, skipNameLoop]
    by_cases hin : pos ≥ stop ∨ pos ≥ message.data.length
    · rw [if_pos hin, if_pos hin]
      rfl
    · rw [if_neg hin, if_neg hin]
      cases index message.data pos with
      | error fault => rfl
      | ok len =>
        rw [ok_bind, ok_bind]
        -- a compression pointer ends the name, as it does in the walker
        by_cases hptr : len &&& 0xc0 = 0xc0
        · rw [if_pos hptr, if_pos hptr]
          cases add w pos 1 with
          | error fault => rfl
          | ok next =>
            rw [ok_bind, ok_bind]
            split
            · rfl
            · cases add w pos 2 <;> rfl
        · rw [if_neg hptr, if_neg hptr]
          split
          · rfl
          · cases add w pos 1 with
            | error fault => rfl
            | ok pos =>
              rw [ok_bind, ok_bind]
              split
              · rfl
              · cases context "DNS label length overflow" (checkedAdd w pos len.toNat) with
                | error fault => rfl
                | ok next =>
                  rw [ok_bind, ok_bind, ← ih next]
                  cases passNameLoop message stop fuel next <;> rfl

theorem skipNameInner_of_passName {message : Slice w} {offset stop next : Nat}
    {labels : List Passed} (h : passName message offset stop = .ok (labels, next)) :
    skipNameInner message offset stop = .ok next := by
  rw [skipNameInner, ← passNameLoop_next, ← passName, h]
  rfl

/-- An encoded name that ends with the root is passed over label by label. -/
theorem passNameLoop_of_stands {message : Slice w} {labels : List Label} {pos stop fuel : Nat}
    (h : Stands message.data pos (WireName.encode ⟨labels, .root⟩))
    (hstop : pos + (WireName.encode ⟨labels, .root⟩).length ≤ stop)
    (hfuel : message.data.length - pos < fuel) :
    passNameLoop message stop fuel pos =
      .ok (labels.map fun l => (UInt8.ofNat l.bytes.length, l.bytes),
        pos + (WireName.encode ⟨labels, .root⟩).length) := by
  have hroom := w.room
  have hslice := message.fits
  have hfits := h.fits
  -- on the labels that are left, with fuel for at least the rest of the message
  induction labels generalizing pos fuel with
  | nil =>
    have hone : (WireName.encode ⟨[], .root⟩).length = 1 := rfl
    rw [hone] at hstop hfits ⊢
    have hbyte : message.data[pos]? = some 0 := h.head
    cases fuel with
    | zero => omega
    | succ fuel =>
      rw [passNameLoop, if_neg (by omega), index_eq hbyte]
      simp only [ok_bind]
      rw [add_eq (by omega)]
      rfl
  | cons l labels ih =>
    have hnonempty := l.nonempty
    have hshort := l.short
    have hbyte := l.toNat_length
    rw [WireName.encode_cons] at h hstop hfits ⊢
    rw [List.length_cons, List.length_append] at hstop hfits ⊢
    have hbits := (label_length (UInt8.ofNat l.bytes.length)).mpr (by omega)
    have hzero : UInt8.ofNat l.bytes.length ≠ 0 := mt (byte_zero _).mp (by omega)
    -- a length below 64 has its two top bits clear, so it is taken for no pointer
    have hptr : ¬ UInt8.ofNat l.bytes.length &&& 0xc0 = 0xc0 := by
      rw [hbits]
      decide
    have hvalue : (message.data.drop (pos + 1)).take l.bytes.length = l.bytes := h.tail.left.value
    cases fuel with
    | zero => omega
    | succ fuel =>
      have hrest := ih h.tail.right (by omega) (show _ < fuel by omega) h.tail.right.fits
      rw [passNameLoop, if_neg (by omega), index_eq h.head]
      simp only [ok_bind]
      rw [if_neg hptr, if_neg (not_not.mpr hbits), add_eq (by omega), ok_bind, if_neg hzero, hbyte,
        checkedAdd_eq (by omega), context, ok_bind, hrest, ok_bind]
      dsimp only
      rw [hvalue, List.map_cons]
      congr 2
      omega

/-! ## What is encoded -/

/-- The labels that are taken. -/
def IsLabel (label : Text) : Prop := label ≠ [] ∧ Text.len label ≤ 63

/-- A label of a name as a label on the wire. -/
def Label.ofText (label : Text) (h : IsLabel label) : Label where
  bytes := Text.asBytes label
  nonempty := List.length_pos_iff.mpr (mt Text.asBytes_eq_nil.mp h.1)
  short := h.2

theorem encodeLabels_eq_ok {labels : List Text} {bytes : Bytes}
    (h : encodeLabels labels = .ok bytes) :
    ∃ wire : List Label, wire.map Label.bytes = labels.map Text.asBytes ∧
      bytes = wire.flatMap Label.encode := by
  induction labels generalizing bytes with
  | nil =>
    obtain rfl := Except.ok.inj h
    exact ⟨[], rfl, rfl⟩
  | cons label labels ih =>
    rw [encodeLabels] at h
    split at h
    · cases h
    · next hlabel =>
      obtain ⟨hne, hlen⟩ := not_or.mp hlabel
      rw [bind_eq_ok] at h
      obtain ⟨rest, hrest, h⟩ := h
      obtain ⟨wire, hwire, rfl⟩ := ih hrest
      obtain rfl := Except.ok.inj h
      refine ⟨.ofText label ⟨hne, Nat.le_of_not_lt hlen⟩ :: wire, ?_, ?_⟩
      · rw [List.map_cons, List.map_cons, hwire]
        rfl
      · rw [List.flatMap_cons]
        rfl

/-- Text is joined as its bytes are. -/
theorem asBytes_intercalate (labels : List Text) :
    Text.asBytes (['.'].intercalate labels) = [0x2e].intercalate (labels.map Text.asBytes) := by
  have hdot : Text.asBytes ['.'] = [0x2e] := by decide
  induction labels with
  | nil => rfl
  | cons label labels ih =>
    by_cases hmore : labels = []
    · rw [hmore, List.map_cons, List.map_nil, List.intercalate_singleton, List.intercalate_singleton]
    · have hmap : labels.map Text.asBytes ≠ [] := mt List.map_eq_nil_iff.mp hmore
      rw [List.map_cons, List.intercalate_cons_of_ne_nil hmore, List.intercalate_cons_of_ne_nil hmap,
        Text.asBytes_append, Text.asBytes_append, hdot, ih]

/-- The labels take a byte more than the name they are joined to. -/
theorem length_labels {wire : List Label} (h : wire ≠ []) :
    (wire.flatMap Label.encode).length = ([0x2e].intercalate (wire.map Label.bytes)).length + 1 := by
  induction wire with
  | nil => exact absurd rfl h
  | cons l wire ih =>
    by_cases hmore : wire = []
    · rw [hmore, List.flatMap_cons, List.map_cons, List.map_nil, List.intercalate_singleton]
      simp [Label.encode]
    · have hmap : wire.map Label.bytes ≠ [] := mt List.map_eq_nil_iff.mp hmore
      have hrest := ih hmore
      rw [List.flatMap_cons, List.map_cons, List.intercalate_cons_of_ne_nil hmap]
      simp only [List.length_append, Label.encode, List.length_cons, List.length_nil]
      omega

/-- The query is the header, the name as it goes on the wire, the type and the
    class. -/
theorem buildHttpsQuery_eq_ok {name : Text} {query : Bytes} (h : buildHttpsQuery name = .ok query) :
    ∃ wire : List Label, query = queryHeader ++ (WireName.encode ⟨wire, .root⟩ ++ put16 65 ++ put16 1) ∧
      [0x2e].intercalate (wire.map Label.bytes) = Text.asBytes (Str.trimEndMatches '.' name) ∧
      (WireName.encode ⟨wire, .root⟩).length ≤ 255 := by
  rw [buildHttpsQuery] at h
  split at h
  · cases h
  · next hname =>
    obtain ⟨-, hlen⟩ := not_or.mp hname
    rw [bind_eq_ok] at h
    obtain ⟨bytes, hbytes, h⟩ := h
    obtain ⟨wire, hwire, rfl⟩ := encodeLabels_eq_ok hbytes
    obtain rfl := Except.ok.inj h
    have hjoin : [0x2e].intercalate (wire.map Label.bytes) =
        Text.asBytes (Str.trimEndMatches '.' name) := by
      rw [hwire, ← asBytes_intercalate, Str.split, List.intercalate_splitOn]
    have hsome : wire ≠ [] := by
      intro hnil
      rw [hnil] at hwire
      exact List.splitOn_ne_nil _ _ (List.map_eq_nil_iff.mp hwire.symm)
    have hlabels := length_labels hsome
    -- the length is checked before the dots are removed
    have htrim : Str.trimEndMatches '.' name <+: name := List.rdropWhile_prefix _ _
    have hshort := Text.len_le_of_infix htrim.isInfix
    have hsize : Text.len (Str.trimEndMatches '.' name) =
      (Text.asBytes (Str.trimEndMatches '.' name)).length := rfl
    refine ⟨wire, by simp [WireName.encode, NameEnd.encode, toBeBytes, put16], hjoin, ?_⟩
    rw [hjoin] at hlabels
    rw [WireName.encode, List.length_append, hlabels, NameEnd.encode]
    simp only [List.length_cons, List.length_nil]
    omega

/-! ## The query names what was asked for -/

/-- What the walker finds in a query for a name. -/
structure Faithful (name : Text) (message : Slice w) (labels : List Passed) (stop : Nat) : Prop where
  passed : passName message 12 message.data.length = .ok (labels, stop)
  skipped : skipNameInner message 12 message.data.length = .ok stop
  at_end : stop + 4 = message.data.length
  qtype : readU16 message stop = .ok 65
  qclass : readU16 message (stop + 2) = .ok 1
  joined : [0x2e].intercalate (labels.map Prod.snd) =
    Text.asBytes (Str.trimEndMatches '.' name)
  lengths : ∀ label ∈ labels, 1 ≤ label.1.toNat ∧ label.1.toNat ≤ 63 ∧ label.1 &&& 0xc0 = 0 ∧
    label.2.length = label.1.toNat
  short : stop ≤ 12 + 255

theorem faithful_of_build {name : Text} {query : Bytes} (h : buildHttpsQuery name = .ok query)
    {message : Slice w} (hmessage : message.data = query) :
    ∃ labels stop, Faithful name message labels stop := by
  obtain ⟨wire, rfl, hjoin, hshort⟩ := buildHttpsQuery_eq_ok h
  have hheader : queryHeader.length = 12 := rfl
  have hstands : Stands message.data 12 (WireName.encode ⟨wire, .root⟩ ++ (put16 65 ++ put16 1)) :=
    ⟨queryHeader, [], by rw [hmessage]; simp, rfl⟩
  -- behind the name stand the type and the class
  have htail := hstands.right
  have hend : 12 + (WireName.encode ⟨wire, .root⟩).length + 4 = message.data.length := by
    rw [hmessage]
    simp only [List.length_append, hheader, put16, List.length_cons, List.length_nil]
    omega
  have hpassed : passName message 12 message.data.length = _ :=
    passNameLoop_of_stands hstands.left (by omega) (by omega)
  refine ⟨_, _, ⟨hpassed, skipNameInner_of_passName hpassed, hend, ?_, ?_, ?_, ?_, by omega⟩⟩
  · exact readU16_ok (htail.left.u16At (by omega))
  · exact readU16_ok (htail.right.u16At (by omega))
  · rw [List.map_map]
    exact hjoin
  · intro label hmem
    obtain ⟨l, -, rfl⟩ := List.mem_map.mp hmem
    have hone := l.nonempty
    have hmost := l.short
    have hbyte : (UInt8.ofNat l.bytes.length).toNat = l.bytes.length := by
      rw [UInt8.toNat_ofNat']
      omega
    dsimp only
    rw [label_length, hbyte]
    omega

/-- **The query encodes its name faithfully**: the walker passes over exactly the
    labels of the name, and queries are equal only for names that are equal up
    to the dots at their end. -/
theorem query_faithful {name : Text} {query : Bytes} (h : buildHttpsQuery name = .ok query) :
    (∀ (w : Width) (message : Slice w), message.data = query →
      ∃ labels stop, Faithful name message labels stop) ∧
    ∀ name', buildHttpsQuery name' = .ok query →
      Str.trimEndMatches '.' name = Str.trimEndMatches '.' name' := by
  refine ⟨fun w message hmessage => faithful_of_build h hmessage, fun name' h' => ?_⟩
  have hfits : query.length ≤ Width.bits64.isizeMax := by
    obtain ⟨wire, rfl, -, hshort⟩ := buildHttpsQuery_eq_ok h
    have hmax : Width.bits64.isizeMax = 2 ^ 63 - 1 := rfl
    have hheader : queryHeader.length = 12 := rfl
    simp only [List.length_append, hheader, put16, List.length_cons, List.length_nil]
    omega
  let message : Slice .bits64 := ⟨query, hfits⟩
  obtain ⟨labels, stop, hname⟩ : ∃ labels stop, Faithful name message labels stop :=
    faithful_of_build h rfl
  obtain ⟨labels', stop', hname'⟩ : ∃ labels stop, Faithful name' message labels stop :=
    faithful_of_build h' rfl
  -- the walker passes over one list of labels
  obtain ⟨rfl, -⟩ := Prod.mk.inj (Except.ok.inj (hname.passed.symm.trans hname'.passed))
  exact Text.asBytes_inj (hname.joined.symm.trans hname'.joined)

/-- The query for `é.eu`, where the first label has one character and two bytes. -/
def exampleQuery : Slice .bits64 where
  data := queryHeader ++ [2, 0xc3, 0xa9, 2, 0x65, 0x75, 0, 0, 65, 0, 1]
  fits := by decide

theorem query_faithful_example :
    (∃ labels stop, Faithful "é.eu..".toList exampleQuery labels stop) ∧
      Str.trimEndMatches '.' "é.eu..".toList = Str.trimEndMatches '.' "é.eu".toList := by
  have hquery : buildHttpsQuery "é.eu..".toList = .ok exampleQuery.data := by decide
  have hother : buildHttpsQuery "é.eu".toList = .ok exampleQuery.data := by decide
  obtain ⟨hfaithful, hsame⟩ := query_faithful hquery
  exact ⟨hfaithful .bits64 exampleQuery rfl, hsame _ hother⟩

end Ech

end EchProxy
