/-
  EliteTelemetry.Dcic.Resctrl — the part of the cache a percentage stands for (`shrinkCBM` of
  `pkg/dcic/resctrl.go`).

  A mask shrinks to its lowest bits: as many as the percentage makes of the place of its
  highest bit, and at least one. They are counted from bit 0 and not from the lowest bit of
  the mask. So a mask that begins at bit 0 shrinks to a part of itself, larger with the
  percentage; one that begins higher up is given bits it does not have by every percentage
  below 100 (`shrunk_within_iff`, `shrinksWell_iff`), and resctrl takes no such mask.
-/

import EliteTelemetry.Lib.BitMask
import EliteTelemetry.Lib.GoText

namespace EliteTelemetry.Dcic.Resctrl

open EliteTelemetry.Lib.BitMask EliteTelemetry.Lib.GoText

/-! ## Shrinking -/

def hex (out : Nat) : String := String.ofList (Nat.toDigits 16 out)

/-- The mask has 64 bits at most, so that 64 shifts leave nothing of it. -/
def shrinkCBM (mask : String) (pct : Int) : String :=
  if 100 ≤ pct then mask
  else
    let pct := if pct < 1 then 1 else pct
    match parseUint mask.toList 16 64 with
    | (_, some _) => mask
    | (v, none) =>
      if v = 0 then mask
      else
        let bits := countShifts 64 v 0
        let keep := bits * pct / 100
        let keep := if keep < 1 then 1 else keep
        hex ((List.range keep.toNat).foldl (fun out i => out ||| 1 <<< i) 0)

def maskOf (text : String) : Option Nat :=
  match parseUint text.toList 16 64 with
  | (v, none) => some v
  | (_, some _) => none

theorem maskOf_eq_some_iff {text : String} {v : Nat} :
    maskOf text = some v ↔ parseUint text.toList 16 64 = (v, none) := by
  unfold maskOf
  split
  · next w h => simp [h]
  · next w e h => simp [h]

theorem maskOf_hex {v : Nat} (hv : v < 2 ^ 64) : maskOf (hex v) = some v := by
  rw [maskOf_eq_some_iff, hex, String.toList_ofList]
  exact parseUint_toDigits (by decide) (by decide) hv

/-! ## What it makes of a cache's mask -/

/-- A cache's mask: hexadecimal, with bits in a row and at least one. -/
structure CacheMask where
  text : String
  value : Nat
  parses : maskOf text = some value
  contiguous : Contiguous value

def kept (hi : Nat) (pct : Int) : Nat := (max 1 (hi * pct / 100)).toNat

theorem kept_pos (hi : Nat) (pct : Int) : 0 < kept hi pct := by
  unfold kept
  omega

theorem kept_mono (hi : Nat) {p q : Int} (h : p ≤ q) : kept hi p ≤ kept hi q := by
  have hmul : (hi : Int) * p ≤ hi * q := Int.mul_le_mul_of_nonneg_left h (by omega)
  have hdiv := Int.ediv_le_ediv (c := 100) (by decide) hmul
  unfold kept
  omega

theorem kept_le {hi : Nat} (hpos : 0 < hi) {pct : Int} (h : pct ≤ 100) : kept hi pct ≤ hi := by
  refine Nat.le_trans (kept_mono hi h) ?_
  unfold kept
  omega

theorem CacheMask.hi_le (m : CacheMask) {hi : Nat} (hge : 2 ^ hi ≤ 2 * m.value) : hi ≤ 64 := by
  have hlt := parseUint_lt (by decide) (maskOf_eq_some_iff.mp m.parses)
  by_contra hgt
  have hpow : 2 ^ 65 ≤ 2 ^ hi := Nat.pow_le_pow_right (by decide) (by omega)
  omega

/-- Below 100 the lowest bits are left, counted by the place of the highest. -/
theorem maskOf_shrinkCBM (m : CacheMask) {lo hi : Nat} (hlt : lo < hi)
    (hbits : ∀ i, m.value.testBit i = decide (lo ≤ i ∧ i < hi)) {pct : Int} (h1 : 1 ≤ pct) (h100 : pct < 100) :
    maskOf (shrinkCBM m.text pct) = some (2 ^ kept hi pct - 1) := by
  obtain ⟨hbelow, habove⟩ := bounds_of_bits hlt hbits
  have hhi := m.hi_le habove
  have hpos := Nat.two_pow_pos hi
  have hcount : countShifts 64 m.value 0 = hi := by
    rw [countShifts_eq hhi hbelow (Or.inl habove), Nat.zero_add]
  have hkeep : (if hi * pct / 100 < 1 then 1 else hi * pct / 100).toNat = kept hi pct := by
    unfold kept
    split <;> omega
  have hle : kept hi pct ≤ 64 := Nat.le_trans (kept_le (by omega) (by omega)) hhi
  unfold shrinkCBM
  simp only [if_neg (Int.not_le.mpr h100), if_neg (Int.not_lt.mpr h1), maskOf_eq_some_iff.mp m.parses,
    if_neg (show ¬m.value = 0 by omega), hcount, hkeep, foldl_or_range]
  have hpow : 2 ^ kept hi pct ≤ 2 ^ 64 := Nat.pow_le_pow_right (by decide) hle
  exact maskOf_hex (by have := Nat.two_pow_pos (kept hi pct); omega)

theorem shrinkCBM_full (mask : String) : shrinkCBM mask 100 = mask := by
  unfold shrinkCBM
  rw [if_pos (by decide)]

/-- Every percentage below 100 leaves a part of the mask, or none does. -/
theorem shrunk_within_iff (m : CacheMask) {pct : Int} (h1 : 1 ≤ pct) (h100 : pct < 100) :
    (∃ w, maskOf (shrinkCBM m.text pct) = some w ∧ Within w m.value) ↔ m.value.testBit 0 = true := by
  obtain ⟨lo, hi, hlt, hbits⟩ := m.contiguous
  have hkept := kept_pos hi pct
  rw [maskOf_shrinkCBM m hlt hbits h1 h100]
  constructor
  · intro h
    obtain ⟨w, hw, hwithin⟩ := h
    obtain rfl := Option.some.inj hw
    refine hwithin 0 ?_
    rw [Nat.testBit_two_pow_sub_one, decide_eq_true_iff]
    exact hkept
  · intro h
    refine ⟨_, rfl, ?_⟩
    intro i hi'
    have hle := kept_le (Nat.lt_of_le_of_lt (Nat.zero_le lo) hlt) (Int.le_of_lt h100)
    rw [hbits, decide_eq_true_iff] at h ⊢
    rw [Nat.testBit_two_pow_sub_one, decide_eq_true_iff] at hi'
    omega

/-- Shrinking as it should be: to a non-empty part of the mask, in a row, all of it at 100 and
    more of it the higher the percentage. -/
structure ShrinksWell (m : CacheMask) : Prop where
  part : ∀ pct, 1 ≤ pct → pct ≤ 100 →
    ∃ w, maskOf (shrinkCBM m.text pct) = some w ∧ Contiguous w ∧ Within w m.value
  full : maskOf (shrinkCBM m.text 100) = some m.value
  mono : ∀ p q, 1 ≤ p → p ≤ q → q ≤ 100 → ∀ w w', maskOf (shrinkCBM m.text p) = some w →
    maskOf (shrinkCBM m.text q) = some w' → Within w w'

theorem maskOf_full (m : CacheMask) : maskOf (shrinkCBM m.text 100) = some m.value := by
  rw [shrinkCBM_full, m.parses]

theorem shrinksWell_of_low (m : CacheMask) (hlow : m.value.testBit 0 = true) : ShrinksWell m := by
  obtain ⟨lo, hi, hlt, hbits⟩ := m.contiguous
  have hpart : ∀ pct, 1 ≤ pct → pct ≤ 100 →
      ∃ w, maskOf (shrinkCBM m.text pct) = some w ∧ Contiguous w ∧ Within w m.value := by
    intro pct h1 h100
    rcases Int.lt_or_eq_of_le h100 with hbelow | rfl
    · obtain ⟨w, hw, hwithin⟩ := (shrunk_within_iff m h1 hbelow).mpr hlow
      rw [maskOf_shrinkCBM m hlt hbits h1 hbelow] at hw ⊢
      obtain rfl := Option.some.inj hw
      exact ⟨_, rfl, contiguous_low (kept_pos hi pct), hwithin⟩
    · exact ⟨m.value, maskOf_full m, m.contiguous, Within.refl _⟩
  refine ⟨hpart, maskOf_full m, ?_⟩
  intro p q hp hpq hq w w' hw hw'
  rcases Int.lt_or_eq_of_le hq with hbelow | rfl
  · rw [maskOf_shrinkCBM m hlt hbits hp (by omega)] at hw
    rw [maskOf_shrinkCBM m hlt hbits (by omega) hbelow] at hw'
    obtain rfl := Option.some.inj hw
    obtain rfl := Option.some.inj hw'
    exact within_low (kept_mono hi hpq)
  · obtain ⟨u, hu, -, hwithin⟩ := hpart p hp hpq
    rw [maskOf_full] at hw'
    obtain rfl := Option.some.inj (hu.symm.trans hw)
    obtain rfl := Option.some.inj hw'
    exact hwithin

/-- A mask shrinks as it should exactly if it begins at bit 0. -/
theorem shrinksWell_iff (m : CacheMask) : ShrinksWell m ↔ m.value.testBit 0 = true := by
  constructor
  · intro h
    obtain ⟨w, hw, -, hwithin⟩ := h.part 1 (by decide) (by decide)
    exact (shrunk_within_iff m (by decide) (by decide)).mp ⟨w, hw, hwithin⟩
  · exact shrinksWell_of_low m

def highNibble : CacheMask where
  text := "f0"
  value := 0xf0
  parses := by decide
  contiguous := contiguous_shiftLeft (n := 4) (by decide) 4

/-- Half of them are four bits, and none of the mask's. -/
theorem highNibble_shrinks_outside :
    shrinkCBM highNibble.text 50 = "f" ∧ maskOf "f" = some 0xf ∧ 0xf &&& highNibble.value = 0 ∧
      ¬ShrinksWell highNibble := by
  have htext : shrinkCBM highNibble.text 50 = "f" := by decide
  have hmask : maskOf "f" = some 0xf := by decide
  refine ⟨htext, hmask, rfl, ?_⟩
  intro h
  obtain ⟨w, hw, -, hwithin⟩ := h.part 50 (by decide) (by decide)
  rw [htext, hmask] at hw
  obtain rfl := Option.some.inj hw
  exact absurd (hwithin 0 rfl) (by decide)

end EliteTelemetry.Dcic.Resctrl
