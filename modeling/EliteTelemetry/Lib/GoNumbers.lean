/-
  EliteTelemetry.Lib.GoNumbers — Go's numbers, with floating point taken as exact rationals.

  A conversion of a float to an integer type cuts the fraction off where the result fits
  the type; where it does not, the language leaves the result to the implementation. `Conv`
  is any implementation: functions with the first half as their law. `saturating` is one
  (what arm64's instructions do).

  An `int` is an `Int64`: a sum that does not fit wraps round.

  Times and durations are nanoseconds; a difference of times is held to the 64 bits of a
  duration.
-/

import Mathlib.Data.Rat.Floor

namespace EliteTelemetry.Lib.GoNumbers

/-! ## Conversions -/

def trunc (x : ℚ) : ℤ := if 0 ≤ x then ⌊x⌋ else ⌈x⌉

structure Conv where
  u32 : ℚ → UInt32
  u64 : ℚ → UInt64
  int : ℚ → ℤ
  u32_fits : ∀ x, -1 < x → x < 2 ^ 32 → ((u32 x).toNat : ℤ) = trunc x
  u64_fits : ∀ x, -1 < x → x < 2 ^ 64 → ((u64 x).toNat : ℤ) = trunc x
  int_fits : ∀ x, -(2 ^ 63 : ℚ) ≤ x → x < 2 ^ 63 → int x = trunc x

theorem trunc_of_nonneg {x : ℚ} (h : 0 ≤ x) : trunc x = ⌊x⌋ := if_pos h

theorem trunc_nonneg {x : ℚ} (h : -1 < x) : 0 ≤ trunc x := by
  unfold trunc
  split
  · exact Int.floor_nonneg.mpr ‹_›
  · exact Int.ceil_nonneg_of_neg_one_lt h

theorem trunc_lt {x : ℚ} {n : ℤ} (h : x < n) (hn : 0 < n) : trunc x < n := by
  unfold trunc
  split
  · exact Int.floor_lt.mpr h
  · rename_i hx
    have : ⌈x⌉ ≤ 0 := Int.ceil_le.mpr (by push_cast; linarith)
    omega

def clampNat (bound : ℕ) (x : ℚ) : ℕ := min (trunc x).toNat (bound - 1)

theorem clampNat_fits (bound : ℕ) {x : ℚ} (hlo : -1 < x) (hhi : x < bound) (hb : 0 < bound) :
    (clampNat bound x : ℤ) = trunc x := by
  have h0 := trunc_nonneg hlo
  have h1 : trunc x < bound := trunc_lt (by exact_mod_cast hhi) (by exact_mod_cast hb)
  unfold clampNat
  omega

def saturating : Conv where
  u32 x := .ofNat (clampNat (2 ^ 32) x)
  u64 x := .ofNat (clampNat (2 ^ 64) x)
  int x := trunc x
  u32_fits x hlo hhi := by
    have h := clampNat_fits (2 ^ 32) hlo (by exact_mod_cast hhi) (by decide)
    rw [UInt32.toNat_ofNat', Nat.mod_eq_of_lt (by unfold clampNat; omega)]
    exact h
  u64_fits x hlo hhi := by
    have h := clampNat_fits (2 ^ 64) hlo (by exact_mod_cast hhi) (by decide)
    rw [UInt64.toNat_ofNat', Nat.mod_eq_of_lt (by unfold clampNat; omega)]
    exact h
  int_fits _ _ _ := rfl

/-! ## Machine integers -/

theorem toInt_add_of_fits {x y : Int64} (hlo : -(2 ^ 63) ≤ x.toInt + y.toInt) (hhi : x.toInt + y.toInt < 2 ^ 63) :
    (x + y).toInt = x.toInt + y.toInt := by
  rw [Int64.toInt_add]
  exact Int.bmod_eq_of_le (by omega) (by omega)

theorem toInt_add_of_overflows {x y : Int64} (h : 2 ^ 63 ≤ x.toInt + y.toInt) :
    (x + y).toInt = x.toInt + y.toInt - 2 ^ 64 := by
  have hx := x.toInt_lt
  have hy := y.toInt_lt
  rw [Int64.toInt_add, ← Int.sub_bmod_right]
  exact Int.bmod_eq_of_le (by omega) (by omega)

theorem toInt_sub_of_fits {x y : Int64} (hlo : -(2 ^ 63) ≤ x.toInt - y.toInt) (hhi : x.toInt - y.toInt < 2 ^ 63) :
    (x - y).toInt = x.toInt - y.toInt := by
  rw [Int64.toInt_sub]
  exact Int.bmod_eq_of_le (by omega) (by omega)

/-! ## Times -/

abbrev Time := ℤ
abbrev Duration := ℤ

def timeSub (t u : Time) : Duration := max (-(2 ^ 63)) (min (2 ^ 63 - 1) (t - u))

def seconds (d : Duration) : ℚ := d / 1000000000

def second : Duration := 1000000000

def zeroTime : Time := -62135596800 * second

theorem seconds_pos {d : Duration} (h : 0 < d) : 0 < seconds d :=
  div_pos (Int.cast_pos.mpr h) (by norm_num)

theorem timeSub_add (t : Time) {d : ℤ} (hlo : -(2 ^ 63) ≤ d) (hhi : d < 2 ^ 63) : timeSub (t + d) t = d := by
  unfold timeSub
  have hle : d ≤ 2 ^ 63 - 1 := by omega
  rw [add_sub_cancel_left, min_eq_right hle, max_eq_right hlo]

theorem le_sub_of_le_timeSub {t u : Time} {d : Duration} (hd : 0 < d) (h : d ≤ timeSub t u) : d ≤ t - u := by
  rcases le_max_iff.mp h with h | h
  · have hneg : -(2 ^ 63) < (0 : ℤ) := by decide
    exact absurd (lt_of_lt_of_le hd h) (not_lt_of_gt hneg)
  · exact le_trans h (min_le_right _ _)

end EliteTelemetry.Lib.GoNumbers
