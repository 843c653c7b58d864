/-
  EliteTelemetry.Lib.BitMask — numbers as sets of bits: bits in a row, one mask inside
  another, the mask of the lowest bits, and how a loop of shifts counts up to the highest.
-/

import Mathlib.Data.Nat.Bitwise

namespace EliteTelemetry.Lib.BitMask

/-! ## Masks -/

/-- The set bits are those from `lo` up to `hi`, and there is one. -/
def Contiguous (v : Nat) : Prop := ∃ lo hi, lo < hi ∧ ∀ i, v.testBit i = decide (lo ≤ i ∧ i < hi)

def Within (w v : Nat) : Prop := ∀ i, w.testBit i = true → v.testBit i = true

theorem Within.refl (v : Nat) : Within v v := fun _ h => h

/-! ## The lowest bits -/

theorem contiguous_shiftLeft {n : Nat} (hn : 0 < n) (lo : Nat) : Contiguous ((2 ^ n - 1) <<< lo) := by
  refine ⟨lo, lo + n, by omega, fun i => ?_⟩
  rw [Nat.testBit_shiftLeft, Nat.testBit_two_pow_sub_one]
  simp only [← Bool.decide_and, decide_eq_decide]
  omega

theorem contiguous_low {n : Nat} (hn : 0 < n) : Contiguous (2 ^ n - 1) := contiguous_shiftLeft hn 0

theorem within_low {m n : Nat} (h : m ≤ n) : Within (2 ^ m - 1) (2 ^ n - 1) := by
  intro i hi
  rw [Nat.testBit_two_pow_sub_one, decide_eq_true_iff] at hi ⊢
  omega

theorem foldl_or_range (n : Nat) : (List.range n).foldl (fun out i => out ||| 1 <<< i) 0 = 2 ^ n - 1 := by
  induction n with
  | zero => rfl
  | succ n ih =>
    rw [List.range_succ, List.foldl_append, ih]
    refine Nat.eq_of_testBit_eq fun i => ?_
    rw [List.foldl_cons, List.foldl_nil, Nat.testBit_or, Nat.testBit_two_pow_sub_one, Nat.testBit_two_pow_sub_one,
      Nat.one_shiftLeft, Nat.testBit_two_pow]
    simp only [← Bool.decide_or, decide_eq_decide]
    omega

/-! ## The highest bit -/

/-- Shift to the right until nothing is left, for at most so many times, counting. -/
def countShifts : Nat → Nat → Nat → Nat
  | 0, _, bits => bits
  | fuel + 1, x, bits => if 0 < x then countShifts fuel (x >>> 1) (bits + 1) else bits

/-- A number below `2 ^ n` and, unless it is zero, not below half of that takes `n` shifts. -/
theorem countShifts_eq {fuel x n bits : Nat} (hn : n ≤ fuel) (hlt : x < 2 ^ n) (hle : 2 ^ n ≤ 2 * x ∨ n = 0) :
    countShifts fuel x bits = bits + n := by
  induction fuel generalizing x n bits with
  | zero =>
    obtain rfl : n = 0 := by omega
    rfl
  | succ fuel ih =>
    unfold countShifts
    cases n with
    | zero =>
      rw [if_neg (by omega)]
      rfl
    | succ n =>
      have hpow : 2 ^ (n + 1) = 2 * 2 ^ n := by rw [Nat.pow_succ, Nat.mul_comm]
      have hpos := Nat.two_pow_pos n
      rw [if_pos (by omega), Nat.shiftRight_eq_div_pow, Nat.pow_one, ih (n := n) (by omega) (by omega), Nat.add_assoc,
        Nat.add_comm 1]
      cases n with
      | zero => exact Or.inr rfl
      | succ n =>
        rw [Nat.pow_succ] at hle hpow ⊢
        omega

theorem bounds_of_bits {v lo hi : Nat} (hlt : lo < hi) (hbits : ∀ i, v.testBit i = decide (lo ≤ i ∧ i < hi)) :
    v < 2 ^ hi ∧ 2 ^ hi ≤ 2 * v := by
  constructor
  · refine Nat.lt_pow_two_of_testBit v fun i hi' => ?_
    rw [hbits, decide_eq_false_iff_not]
    omega
  · obtain ⟨top, rfl⟩ : ∃ top, hi = top + 1 := ⟨hi - 1, by omega⟩
    have htop : v.testBit top = true := by
      rw [hbits, decide_eq_true_iff]
      omega
    have := Nat.ge_two_pow_of_testBit htop
    rw [Nat.pow_succ]
    omega

end EliteTelemetry.Lib.BitMask
