import Mathlib.Data.List.Basic
import Mathlib.Tactic.Common

/-! # Bytes and Text

    The two data types every part of the proxy passes around.  Network data
    is a list of bytes.  Text the code inspects (hosts, header lines, tokens,
    policy names) is a list of characters; the byte length and the bytes of
    such a text are those of its UTF-8 encoding.
-/

namespace EchProxy

/-- Network data. -/
abbrev Bytes := List UInt8

/-- Text the code looks into. -/
abbrev Text := List Char

/-- The UTF-8 bytes of a text (`str::as_bytes`). -/
def Text.asBytes (t : Text) : Bytes :=
  t.flatMap String.utf8EncodeChar

/-- The length of a text in bytes (`str::len`). -/
def Text.len (t : Text) : Nat :=
  (Text.asBytes t).length

@[simp] theorem Text.asBytes_nil : Text.asBytes [] = [] := rfl

@[simp] theorem Text.asBytes_cons (c : Char) (t : Text) :
    Text.asBytes (c :: t) = String.utf8EncodeChar c ++ Text.asBytes t := rfl

@[simp] theorem Text.asBytes_append (t u : Text) :
    Text.asBytes (t ++ u) = Text.asBytes t ++ Text.asBytes u :=
  List.flatMap_append

@[simp] theorem Text.len_nil : Text.len [] = 0 := rfl

@[simp] theorem Text.len_append (t u : Text) : Text.len (t ++ u) = Text.len t + Text.len u := by
  rw [Text.len, Text.asBytes_append, List.length_append]
  rfl

theorem Text.len_cons (c : Char) (t : Text) : Text.len (c :: t) = c.utf8Size + Text.len t := by
  rw [Text.len, Text.asBytes_cons, List.length_append, String.length_utf8EncodeChar]
  rfl

/-- A character takes a byte at least. -/
theorem Text.length_le_len (t : Text) : t.length ≤ Text.len t := by
  induction t with
  | nil => exact Nat.le_refl 0
  | cons c t ih =>
    have hpos := c.utf8Size_pos
    rw [Text.len_cons, List.length_cons]
    omega

theorem Text.len_le_of_infix {t u : Text} (h : t <:+: u) : Text.len t ≤ Text.len u := by
  obtain ⟨before, after, rfl⟩ := h
  rw [Text.len_append, Text.len_append]
  omega

/-- The text that bytes encode (`str::from_utf8`). -/
def Text.fromUtf8 (bytes : Bytes) : Option Text :=
  bytes.toByteArray.utf8Decode?.map Array.toList

@[simp] theorem Text.fromUtf8_asBytes (t : Text) : Text.fromUtf8 (Text.asBytes t) = some t := by
  have hencode : (Text.asBytes t).toByteArray = t.utf8Encode := rfl
  rw [Text.fromUtf8, hencode, List.utf8Decode?_utf8Encode]
  rfl

/-- Bytes that are decoded are the encoding of what comes out. -/
theorem Text.asBytes_of_fromUtf8 {bytes : Bytes} {t : Text} (h : Text.fromUtf8 bytes = some t) :
    Text.asBytes t = bytes := by
  have hsome : (bytes.toByteArray.utf8Decode?).isSome := by
    rw [Text.fromUtf8, Option.map_eq_some_iff] at h
    obtain ⟨chars, hchars, -⟩ := h
    rw [hchars]
    rfl
  obtain ⟨u, hu⟩ := ByteArray.isSome_utf8Decode?_iff.mp hsome
  have hencode : (Text.asBytes u).toByteArray = u.utf8Encode := rfl
  have hbytes : bytes = Text.asBytes u := by
    have hdata := congrArg ByteArray.data (hu.trans hencode.symm)
    rw [List.data_toByteArray, List.data_toByteArray] at hdata
    exact congrArg Array.toList hdata
  rw [hbytes, Text.fromUtf8_asBytes] at h
  rw [hbytes, Option.some.inj h]

/-- A longer encoding has no byte below 0x80. -/
theorem toNat_of_mem_utf8EncodeChar {c : Char} {b : UInt8} (h : b ∈ String.utf8EncodeChar c)
    (hb : b.toNat < 0x80) : c.toNat = b.toNat := by
  have hsmall : ∀ n, b = UInt8.ofNat n → n < 256 → n = b.toNat := by
    intro n hn hlt
    rw [hn, UInt8.toNat_ofNat', Nat.mod_eq_of_lt hlt]
  show c.val.toNat = b.toNat
  unfold String.utf8EncodeChar at h
  dsimp only at h
  split at h
  · exact hsmall _ (List.mem_singleton.mp h) (by omega)
  · split at h
    · rcases List.mem_pair.mp h with h | h
      · have := hsmall _ h (by omega)
        omega
      · have := hsmall _ h (by omega)
        omega
    · split at h
      · simp only [List.mem_cons, List.not_mem_nil, or_false] at h
        rcases h with h | h | h
        all_goals
          have := hsmall _ h (by omega)
          omega
      · simp only [List.mem_cons, List.not_mem_nil, or_false] at h
        rcases h with h | h | h | h
        all_goals
          have := hsmall _ h (by omega)
          omega

/-- In the encoding of a text every byte below 0x80 is a character of its own. -/
theorem Text.mem_of_mem_asBytes {t : Text} {b : UInt8} (h : b ∈ Text.asBytes t)
    (hb : b.toNat < 0x80) : Char.ofNat b.toNat ∈ t := by
  obtain ⟨c, hc, hmem⟩ := List.mem_flatMap.mp h
  rw [← toNat_of_mem_utf8EncodeChar hmem hb, Char.ofNat_toNat]
  exact hc

theorem Text.asBytes_eq_nil {t : Text} : Text.asBytes t = [] ↔ t = [] := by
  constructor
  · intro h
    have hdecode := Text.fromUtf8_asBytes t
    rw [h, ← Text.asBytes_nil, Text.fromUtf8_asBytes] at hdecode
    exact (Option.some.inj hdecode).symm
  · rintro rfl
    rfl

theorem Text.asBytes_inj {t u : Text} (h : Text.asBytes t = Text.asBytes u) : t = u := by
  have hdecode := Text.fromUtf8_asBytes t
  rw [h, Text.fromUtf8_asBytes] at hdecode
  exact (Option.some.inj hdecode).symm

theorem Text.asBytes_ascii {c : Char} (hc : c.toNat < 0x80) :
    String.utf8EncodeChar c = [UInt8.ofNat c.toNat] := by
  unfold String.utf8EncodeChar
  dsimp only
  rw [if_pos (show c.val.toNat ≤ 0x7f by have : c.val.toNat < 0x80 := hc; omega)]
  rfl

/-- Where an ASCII character stands among the bytes, it stands in the text. -/
theorem Text.split_asBytes {c : Char} (hc : c.toNat < 0x80) (t : Text) (before after : Bytes)
    (h : Text.asBytes t = before ++ (String.utf8EncodeChar c ++ after)) :
    ∃ u v, t = u ++ c :: v ∧ Text.asBytes u = before ∧ Text.asBytes v = after := by
  rw [Text.asBytes_ascii hc, List.singleton_append] at h
  induction t generalizing before with
  | nil => simp at h
  | cons d t ih =>
    rw [Text.asBytes_cons] at h
    rcases List.append_eq_append_iff.mp h with ⟨mid, rfl, hrest⟩ | ⟨mid, hd, hrest⟩
    · -- the byte is behind the first character
      obtain ⟨u, v, rfl, hu, hv⟩ := ih mid hrest
      exact ⟨d :: u, v, rfl, by rw [Text.asBytes_cons, hu], hv⟩
    · cases mid with
      | nil =>
        obtain ⟨u, v, rfl, hu, hv⟩ := ih [] hrest.symm
        refine ⟨d :: u, v, rfl, ?_, hv⟩
        rw [Text.asBytes_cons, hu, hd, List.append_nil, List.append_nil]
      | cons b mid =>
        -- it is one of the first character, which is then this byte alone
        obtain ⟨hb, hafter⟩ := List.cons.inj hrest
        have hbyte : b.toNat = c.toNat := by
          rw [← hb, UInt8.toNat_ofNat', Nat.mod_eq_of_lt (by omega)]
        have hnat : d.toNat = b.toNat :=
          toNat_of_mem_utf8EncodeChar (by rw [hd]; simp) (by omega)
        have hsame : d = c := Char.toNat_inj.mp (hnat.trans hbyte)
        rw [hsame, Text.asBytes_ascii hc] at hd
        rcases List.append_eq_singleton_iff.mp hd.symm with ⟨rfl, hone⟩ | ⟨-, hnone⟩
        · obtain ⟨-, rfl⟩ := List.cons.inj hone
          exact ⟨[], t, by rw [hsame]; rfl, rfl, hafter.symm⟩
        · cases hnone

/-- ASCII text at the beginning of the bytes is at the beginning of the text. -/
theorem Text.prefix_asBytes {p : Text} (hp : ∀ c ∈ p, c.toNat < 0x80) {t : Text} {after : Bytes}
    (h : Text.asBytes t = Text.asBytes p ++ after) : ∃ v, t = p ++ v ∧ Text.asBytes v = after := by
  induction p generalizing t with
  | nil => exact ⟨t, rfl, h⟩
  | cons c p ih =>
    rw [Text.asBytes_cons, List.append_assoc] at h
    obtain ⟨u, v, rfl, hu, hv⟩ := Text.split_asBytes (hp c List.mem_cons_self) t [] _ h
    obtain rfl := Text.asBytes_eq_nil.mp hu
    obtain ⟨w, rfl, hw⟩ := ih (fun d hd => hp d (List.mem_cons_of_mem _ hd)) hv
    exact ⟨w, rfl, hw⟩

/-- `u8::is_ascii_whitespace`: space, tab, line feed, form feed, carriage
    return. -/
def isAsciiWhitespace (b : UInt8) : Bool :=
  b == 0x20 || b == 0x09 || b == 0x0a || b == 0x0c || b == 0x0d

end EchProxy
