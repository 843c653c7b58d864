/-
  EliteTelemetry.Lib.LeastSquares — the line closest to finitely many points, by the sum of
  the squared distances.

  A line that meets the normal equations is closest (`isFit_of_normal`): what another line
  adds to its distance is a sum of squares. Where two points have different abscissas the
  equations have a solution, as what they are divided by is positive (`spread_pos`), and no
  other slope does as well (`isSlope_iff`). Up to one point any slope does.
-/

import Mathlib.Algebra.BigOperators.Field
import Mathlib.Algebra.Order.BigOperators.Ring.Finset
import Mathlib.Algebra.Order.Field.Basic
import Mathlib.Tactic.FieldSimp
import Mathlib.Tactic.Linarith
import Mathlib.Tactic.LinearCombination

namespace EliteTelemetry.Lib.LeastSquares

/-! ## Lines -/

section Equations

variable {ι K : Type} [Field K] (s : Finset ι) (x y : ι → K)

def residual (a b : K) : K := ∑ i ∈ s, (y i - (a + b * x i)) ^ 2

structure Normal (a b : K) : Prop where
  sum : ∑ i ∈ s, (y i - (a + b * x i)) = 0
  moment : ∑ i ∈ s, (y i - (a + b * x i)) * x i = 0

variable {s x y}

theorem residual_of_normal {a b : K} (h : Normal s x y a b) (a' b' : K) :
    residual s x y a' b' = residual s x y a b + ∑ i ∈ s, ((a - a') + (b - b') * x i) ^ 2 := by
  have hcross : ∑ i ∈ s, (y i - (a + b * x i)) * ((a - a') + (b - b') * x i) = 0 := by
    calc ∑ i ∈ s, (y i - (a + b * x i)) * ((a - a') + (b - b') * x i)
        = (a - a') * ∑ i ∈ s, (y i - (a + b * x i)) + (b - b') * ∑ i ∈ s, (y i - (a + b * x i)) * x i := by
          rw [Finset.mul_sum, Finset.mul_sum, ← Finset.sum_add_distrib]
          exact Finset.sum_congr rfl fun i _ => by ring
      _ = 0 := by rw [h.sum, h.moment, mul_zero, mul_zero, add_zero]
  calc residual s x y a' b'
      = ∑ i ∈ s, ((y i - (a + b * x i)) ^ 2 + ((a - a') + (b - b') * x i) ^ 2
          + 2 * ((y i - (a + b * x i)) * ((a - a') + (b - b') * x i))) :=
        Finset.sum_congr rfl fun i _ => by ring
    _ = residual s x y a b + ∑ i ∈ s, ((a - a') + (b - b') * x i) ^ 2 := by
        rw [Finset.sum_add_distrib, Finset.sum_add_distrib, ← Finset.mul_sum, hcross, mul_zero, add_zero, residual]

variable (s x y)

def spread : K := s.card * ∑ i ∈ s, x i * x i - (∑ i ∈ s, x i) * ∑ i ∈ s, x i

def fitSlope : K := (s.card * ∑ i ∈ s, x i * y i - (∑ i ∈ s, x i) * ∑ i ∈ s, y i) / spread s x

variable {s x y}

theorem fitSlope_congr {y' : ι → K} (h : ∀ i ∈ s, y i = y' i) : fitSlope s x y = fitSlope s x y' := by
  rw [fitSlope, fitSlope, Finset.sum_congr rfl h, Finset.sum_congr rfl fun i hi => congrArg (x i * ·) (h i hi)]

theorem sum_residuals (a b : K) :
    ∑ i ∈ s, (y i - (a + b * x i)) = ∑ i ∈ s, y i - (s.card * a + b * ∑ i ∈ s, x i) := by
  rw [Finset.sum_sub_distrib, Finset.sum_add_distrib, Finset.sum_const, nsmul_eq_mul, ← Finset.mul_sum]

theorem sum_moments (a b : K) :
    ∑ i ∈ s, (y i - (a + b * x i)) * x i = ∑ i ∈ s, x i * y i - (a * ∑ i ∈ s, x i + b * ∑ i ∈ s, x i * x i) := by
  rw [Finset.mul_sum, Finset.mul_sum, ← Finset.sum_add_distrib, ← Finset.sum_sub_distrib]
  exact Finset.sum_congr rfl fun i _ => by ring

theorem exists_normal (hcard : (s.card : K) ≠ 0) (h : spread s x ≠ 0) :
    ∃ a, Normal s x y a (fitSlope s x y) := by
  have hslope : fitSlope s x y * spread s x = s.card * ∑ i ∈ s, x i * y i - (∑ i ∈ s, x i) * ∑ i ∈ s, y i :=
    div_mul_cancel₀ _ h
  obtain ⟨a, ha⟩ : ∃ a, s.card * a = ∑ i ∈ s, y i - fitSlope s x y * ∑ i ∈ s, x i := ⟨_, mul_div_cancel₀ _ hcard⟩
  refine ⟨a, ?_, ?_⟩
  · rw [sum_residuals, ha, sub_add_cancel, sub_self]
  · have hmul : s.card * ∑ i ∈ s, (y i - (a + fitSlope s x y * x i)) * x i = 0 := by
      rw [sum_moments]
      rw [spread] at hslope
      linear_combination -(∑ i ∈ s, x i) * ha - hslope
    exact (mul_eq_zero.mp hmul).resolve_left hcard

end Equations

/-! ## The closest line -/

section Fit

variable {ι K : Type} [Field K] [LinearOrder K] [IsStrictOrderedRing K] (s : Finset ι) (x y : ι → K)

def IsFit (a b : K) : Prop := ∀ a' b', residual s x y a b ≤ residual s x y a' b'

def IsSlope (b : K) : Prop := ∃ a, IsFit s x y a b

variable {s x y}

theorem isFit_of_normal {a b : K} (h : Normal s x y a b) : IsFit s x y a b := by
  intro a' b'
  rw [residual_of_normal h a' b']
  exact le_add_of_nonneg_right (Finset.sum_nonneg fun i _ => sq_nonneg _)

theorem isFit_of_line {a b : K} (h : ∀ i ∈ s, y i = a + b * x i) : IsFit s x y a b := by
  intro a' b'
  have hzero : residual s x y a b = 0 := Finset.sum_eq_zero fun i hi => by rw [h i hi, sub_self, zero_pow two_ne_zero]
  rw [hzero]
  exact Finset.sum_nonneg fun i _ => sq_nonneg _

theorem isSlope_of_card_le_one (h : s.card ≤ 1) (b : K) : IsSlope s x y b := by
  rcases s.eq_empty_or_nonempty with rfl | ⟨i, hi⟩
  · exact ⟨0, isFit_of_line (by simp)⟩
  · refine ⟨y i - b * x i, isFit_of_line fun j hj => ?_⟩
    rw [Finset.card_le_one.mp h j hj i hi, sub_add_cancel]

/-- The spread is the sum of the squared distances from the mean, for each point. -/
theorem spread_eq (h : s.Nonempty) :
    spread s x = s.card * ∑ i ∈ s, (x i - (∑ j ∈ s, x j) / s.card) ^ 2 := by
  have hcard : (s.card : K) ≠ 0 := Nat.cast_ne_zero.mpr (Finset.card_ne_zero.mpr h)
  have hterm : ∑ i ∈ s, (x i - (∑ j ∈ s, x j) / s.card) ^ 2 =
      ∑ i ∈ s, x i * x i - 2 * ((∑ j ∈ s, x j) / s.card) * ∑ i ∈ s, x i
        + s.card * ((∑ j ∈ s, x j) / s.card) ^ 2 := by
    rw [Finset.mul_sum, ← Finset.sum_sub_distrib, ← nsmul_eq_mul, ← Finset.sum_const, ← Finset.sum_add_distrib]
    exact Finset.sum_congr rfl fun i _ => by ring
  rw [hterm, spread]
  field_simp
  ring

theorem spread_pos {i j : ι} (hi : i ∈ s) (hj : j ∈ s) (hne : x i ≠ x j) : 0 < spread s x := by
  have hcard : (0 : K) < s.card := Nat.cast_pos.mpr (Finset.card_pos.mpr ⟨i, hi⟩)
  rw [spread_eq ⟨i, hi⟩]
  refine mul_pos hcard (Finset.sum_pos' (fun _ _ => sq_nonneg _) ?_)
  -- not both are the mean
  by_cases hmean : x i = (∑ k ∈ s, x k) / s.card
  · exact ⟨j, hj, sq_pos_of_ne_zero fun h => hne (by rw [hmean, sub_eq_zero.mp h])⟩
  · exact ⟨i, hi, sq_pos_of_ne_zero (sub_ne_zero.mpr hmean)⟩

theorem isSlope_iff {i j : ι} (hi : i ∈ s) (hj : j ∈ s) (hne : x i ≠ x j) (b : K) :
    IsSlope s x y b ↔ b = fitSlope s x y := by
  have hcard : (s.card : K) ≠ 0 := Nat.cast_ne_zero.mpr (Finset.card_ne_zero.mpr ⟨i, hi⟩)
  obtain ⟨c, hnormal⟩ := exists_normal (y := y) hcard (spread_pos hi hj hne).ne'
  constructor
  · intro h
    obtain ⟨a, hfit⟩ := h
    -- the other line is no farther, so what it adds is zero at each point
    have hadds := residual_of_normal hnormal a b
    have hle := hfit c (fitSlope s x y)
    have hsum : ∑ k ∈ s, ((c - a) + (fitSlope s x y - b) * x k) ^ 2 = 0 :=
      le_antisymm (by linarith) (Finset.sum_nonneg fun k _ => sq_nonneg _)
    have hzero := (Finset.sum_eq_zero_iff_of_nonneg fun k _ => sq_nonneg _).mp hsum
    have hxi := pow_eq_zero_iff two_ne_zero |>.mp (hzero i hi)
    have hxj := pow_eq_zero_iff two_ne_zero |>.mp (hzero j hj)
    have hmul : (fitSlope s x y - b) * (x i - x j) = 0 := by linear_combination hxi - hxj
    rcases mul_eq_zero.mp hmul with h | h
    · exact (sub_eq_zero.mp h).symm
    · exact absurd (sub_eq_zero.mp h) hne
  · intro h
    rw [h]
    exact ⟨c, isFit_of_normal hnormal⟩

end Fit

end EliteTelemetry.Lib.LeastSquares
