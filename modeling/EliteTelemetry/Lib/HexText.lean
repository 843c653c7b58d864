/-
  EliteTelemetry.Lib.HexText — numbers in hexadecimal digits of a fixed width, as bytes.

  `hex w n` is what `%0wX` writes of a number below 16^w; `strconv.ParseUint` reads it back
  (`parseUint_hex`). Its bytes are digits, so whoever scans for anything else passes over it
  (`of_mem_hex`). A text of one-byte characters is the same as bytes (`chars_bytesOf`).
-/

import EliteTelemetry.Lib.GoText

namespace EliteTelemetry.Lib.HexText

open EliteTelemetry.Lib.GoText

def hexDigit (d : Nat) : UInt8 := if d < 10 then .ofNat ('0'.toNat + d) else .ofNat ('A'.toNat + (d - 10))

def hex : Nat → Nat → List UInt8
  | 0, _ => []
  | w + 1, n => hex w (n / 16) ++ [hexDigit (n % 16)]

def chars (bs : List UInt8) : List Char := bs.map fun b => Char.ofNat b.toNat

def bytesOf (cs : List Char) : List UInt8 := cs.map Char.toUInt8

theorem toNat_toUInt8 {c : Char} (h : c.toNat < 256) : c.toUInt8.toNat = c.toNat := by
  have hbyte : c.toUInt8.toNat = c.toNat % 256 := UInt32.toNat_toUInt8 c.val
  rw [hbyte, Nat.mod_eq_of_lt h]

theorem chars_bytesOf {cs : List Char} (h : ∀ c ∈ cs, c.toNat < 256) : chars (bytesOf cs) = cs := by
  unfold chars bytesOf
  rw [List.map_map]
  refine (List.map_congr_left fun c hc => ?_).trans (List.map_id cs)
  simp [toNat_toUInt8 (h c hc)]

@[simp] theorem hex_length (w n : Nat) : (hex w n).length = w := by
  induction w generalizing n with
  | zero => rfl
  | succ w ih => simp [hex, ih]

theorem hexDigit_of_mem {w n : Nat} {b : UInt8} (h : b ∈ hex w n) : ∃ d < 16, b = hexDigit d := by
  induction w generalizing n with
  | zero => cases h
  | succ w ih =>
    rcases List.mem_append.mp h with h | h
    · exact ih h
    · exact ⟨n % 16, Nat.mod_lt _ (by decide), List.mem_singleton.mp h⟩

theorem of_mem_hex {P : UInt8 → Prop} (hdigits : ∀ d < 16, P (hexDigit d)) {w n : Nat} {b : UInt8} (h : b ∈ hex w n) :
    P b := by
  obtain ⟨d, hd, rfl⟩ := hexDigit_of_mem h
  exact hdigits d hd

theorem digitValue_hexDigit : ∀ d < 16, digitValue (Char.ofNat (hexDigit d).toNat) = some d := by decide

theorem digits_hex (w n : Nat) : Digits 16 (chars (hex w n)) := by
  intro c hc
  obtain ⟨b, hb, rfl⟩ := List.mem_map.mp hc
  obtain ⟨d, hd, rfl⟩ := hexDigit_of_mem hb
  exact ⟨d, hd, digitValue_hexDigit d hd⟩

theorem digitsValue_hex (w n : Nat) : digitsValue 16 (chars (hex w n)) 0 = n % 16 ^ w := by
  induction w generalizing n with
  | zero => simp [hex, chars, digitsValue, Nat.mod_one]
  | succ w ih =>
    have hlast := digitValue_hexDigit (n % 16) (Nat.mod_lt _ (by decide))
    have hstep : digitsValue 16 (chars (hex (w + 1) n)) 0 =
        digitsValue 16 (chars (hex w (n / 16))) 0 * 16 + n % 16 := by
      simp [hex, chars, digitsValue, hlast]
    rw [hstep, ih, Nat.pow_succ', Nat.mod_mul]
    omega

theorem parseUint_hex {w n bitSize : Nat} (hw : 0 < w) (hn : n < 16 ^ w) (hbits : n < 2 ^ bitSize) :
    parseUint (chars (hex w n)) 16 bitSize = (n, none) := by
  have hne : chars (hex w n) ≠ [] := by
    intro h
    have hlen := congrArg List.length h
    simp [chars] at hlen
    omega
  have hvalue : digitsValue 16 (chars (hex w n)) 0 = n := by rw [digitsValue_hex, Nat.mod_eq_of_lt hn]
  unfold parseUint
  rw [if_neg hne, if_neg (by decide), parseDigits_of_digits (by decide) (digits_hex w n) (by rw [hvalue]; exact hbits),
    hvalue]

end EliteTelemetry.Lib.HexText
