/-
  EliteTelemetry.Lib.Utf8 — texts as bytes: a language whose strings are any bytes, read as
  characters where they are.

  Reading takes the character the bytes begin with, or U+FFFD for one byte where they begin
  with none. The encoding of characters is read back (`runes_encode`). The first `n` bytes of
  an encoding are one themselves exactly if `n` is between two characters (`valid_take_iff`).
-/

import Mathlib.Data.List.Basic

namespace EliteTelemetry.Lib.Utf8

open String (utf8EncodeChar)

/-! ## Encoding and reading -/

def encode (cs : List Char) : List UInt8 := cs.flatMap utf8EncodeChar

def Valid (bs : List UInt8) : Prop := ∃ cs, bs = encode cs

def firstRune (bs : List UInt8) : Option Char := bs.toByteArray.utf8DecodeChar? 0

def runeError : Char := Char.ofNat 0xfffd

/-- The characters that are read, after so many bytes of one that has been. -/
def runesFrom : Nat → List UInt8 → List Char
  | _, [] => []
  | skip + 1, _ :: bs => runesFrom skip bs
  | 0, b :: bs =>
    match firstRune (b :: bs) with
    | some c => c :: runesFrom (c.utf8Size - 1) bs
    | none => runeError :: runesFrom 0 bs

def runes (bs : List UInt8) : List Char := runesFrom 0 bs

/-- The text with each character that is read mapped to another, or left out. -/
def mapRunes (f : Char → Option Char) (bs : List UInt8) : List UInt8 := encode ((runes bs).filterMap f)

@[simp] theorem encode_nil : encode [] = [] := rfl

@[simp] theorem encode_cons (c : Char) (cs : List Char) : encode (c :: cs) = utf8EncodeChar c ++ encode cs := rfl

theorem encode_append (cs ds : List Char) : encode (cs ++ ds) = encode cs ++ encode ds := List.flatMap_append

theorem firstRune_encodeChar (c : Char) (bs : List UInt8) : firstRune (utf8EncodeChar c ++ bs) = some c := by
  rw [firstRune, List.toByteArray_append, ByteArray.utf8DecodeChar?_utf8EncodeChar_append]

theorem runesFrom_append (skipped bs : List UInt8) : runesFrom skipped.length (skipped ++ bs) = runesFrom 0 bs := by
  induction skipped with
  | nil => rfl
  | cons b skipped ih => exact ih

theorem runes_encodeChar (c : Char) (bs : List UInt8) : runes (utf8EncodeChar c ++ bs) = c :: runes bs := by
  obtain ⟨b, rest, hbytes⟩ : ∃ b rest, utf8EncodeChar c = b :: rest :=
    List.exists_cons_of_length_pos (by rw [String.length_utf8EncodeChar]; exact c.utf8Size_pos)
  have hsize : c.utf8Size - 1 = rest.length := by
    rw [← String.length_utf8EncodeChar, hbytes, List.length_cons, Nat.add_sub_cancel]
  have hfirst : firstRune (b :: (rest ++ bs)) = some c := by
    rw [← List.cons_append, ← hbytes, firstRune_encodeChar]
  rw [hbytes, List.cons_append, runes, runesFrom, hfirst]
  simp only [hsize, runesFrom_append, runes]

theorem runes_encode (cs : List Char) : runes (encode cs) = cs := by
  induction cs with
  | nil => rfl
  | cons c cs ih => rw [encode_cons, runes_encodeChar, ih]

theorem mapRunes_encode (f : Char → Option Char) (cs : List Char) :
    mapRunes f (encode cs) = encode (cs.filterMap f) := by
  rw [mapRunes, runes_encode]

/-! ## Parts of an encoding -/

theorem encodeChar_append_inj {c d : Char} {as bs : List UInt8}
    (h : utf8EncodeChar c ++ as = utf8EncodeChar d ++ bs) : c = d ∧ as = bs := by
  have hfirst := firstRune_encodeChar c as
  rw [h, firstRune_encodeChar] at hfirst
  obtain rfl := Option.some.inj hfirst
  exact ⟨rfl, List.append_cancel_left h⟩

theorem encode_isPrefix_iff {ds cs : List Char} : encode ds <+: encode cs ↔ ds <+: cs := by
  constructor
  · intro h
    induction ds generalizing cs with
    | nil => exact List.nil_prefix
    | cons d ds ih =>
      obtain ⟨rest, hrest⟩ := h
      rw [encode_cons, List.append_assoc] at hrest
      cases cs with
      | nil =>
        have hlen := congrArg List.length hrest
        have := d.utf8Size_pos
        simp only [List.length_append, String.length_utf8EncodeChar, encode_nil, List.length_nil] at hlen
        omega
      | cons c cs =>
        obtain ⟨rfl, htail⟩ := encodeChar_append_inj hrest
        exact (List.prefix_cons_inj d).mpr (ih ⟨rest, htail⟩)
  · intro h
    obtain ⟨rest, rfl⟩ := h
    rw [encode_append]
    exact List.prefix_append _ _

/-- Byte `n` of the encoding is where a character ends. -/
def Boundary (cs : List Char) (n : Nat) : Prop := ∃ ds, ds <+: cs ∧ (encode ds).length = n

theorem take_of_boundary {cs : List Char} {n : Nat} (h : Boundary cs n) :
    ∃ ds, ds <+: cs ∧ (encode cs).take n = encode ds := by
  obtain ⟨ds, hds, hlen⟩ := h
  refine ⟨ds, hds, ?_⟩
  rw [← hlen, ← List.prefix_iff_eq_take.mp (encode_isPrefix_iff.mpr hds)]

theorem valid_take_iff {cs : List Char} {n : Nat} (hn : n ≤ (encode cs).length) :
    Valid ((encode cs).take n) ↔ Boundary cs n := by
  constructor
  · intro h
    obtain ⟨ds, hds⟩ := h
    refine ⟨ds, encode_isPrefix_iff.mp (hds ▸ List.take_prefix n _), ?_⟩
    rw [← hds, List.length_take, Nat.min_eq_left hn]
  · intro h
    obtain ⟨ds, -, htake⟩ := take_of_boundary h
    exact ⟨ds, htake⟩

/-! ## Bytes below 128 -/

theorem le_toNat_or {x mark : UInt8} (hmark : 128 ≤ mark.toNat) : 128 ≤ (x ||| mark).toNat := by
  rw [UInt8.toNat_or]
  exact Nat.le_trans hmark Nat.right_le_or

/-- A byte below 128 is the whole of a character; the bytes of a longer one are marked. -/
theorem toNat_of_mem_encodeChar {c : Char} {b : UInt8} (hb : b ∈ utf8EncodeChar c) (hlt : b.toNat < 128) :
    c.toNat = b.toNat := by
  rcases c.utf8Size_eq with h | h | h | h
  · have hle : c.val.toNat ≤ 127 := UInt32.le_iff_toNat_le.mp (Char.utf8Size_eq_one_iff.mp h)
    rw [String.utf8EncodeChar_eq_singleton h, List.mem_singleton] at hb
    rw [hb, UInt32.toNat_toUInt8, Nat.mod_eq_of_lt (by omega)]
    rfl
  · rw [String.utf8EncodeChar_eq_cons_cons h] at hb
    simp only [List.mem_cons, List.not_mem_nil, or_false] at hb
    rcases hb with rfl | rfl
    all_goals exact absurd (le_toNat_or (by decide)) (Nat.not_le.mpr hlt)
  · rw [String.utf8EncodeChar_eq_cons_cons_cons h] at hb
    simp only [List.mem_cons, List.not_mem_nil, or_false] at hb
    rcases hb with rfl | rfl | rfl
    all_goals exact absurd (le_toNat_or (by decide)) (Nat.not_le.mpr hlt)
  · rw [String.utf8EncodeChar_eq_cons_cons_cons_cons h] at hb
    simp only [List.mem_cons, List.not_mem_nil, or_false] at hb
    rcases hb with rfl | rfl | rfl | rfl
    all_goals exact absurd (le_toNat_or (by decide)) (Nat.not_le.mpr hlt)

theorem exists_toNat_of_mem_encode {cs : List Char} {b : UInt8} (hb : b ∈ encode cs) (hlt : b.toNat < 128) :
    ∃ c ∈ cs, c.toNat = b.toNat := by
  obtain ⟨c, hc, hbc⟩ := List.mem_flatMap.mp hb
  exact ⟨c, hc, toNat_of_mem_encodeChar hbc hlt⟩

end EliteTelemetry.Lib.Utf8
