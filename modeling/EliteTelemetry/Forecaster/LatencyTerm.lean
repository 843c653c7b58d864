/-
  EliteTelemetry.Forecaster.LatencyTerm — what a latency fault adds to the overload
  (`FuseOverload` of `overload.go`, `ComputeOverloadFraction` of `traffic_engine.go`).

  A latency fault asks for an overload of one half, and for more as the projected latency
  outgrows the present one: the quotient of the two is taken for a load with target 1. But a
  target of 1 is no valid one and is replaced by 7/10, so the quotient counts from 7/10 on, is
  worth one half at 17/20 (`latencyOverload_le_half_iff`) and nearly everything where the
  latency stands still (`a_steady_fault_sheds_nearly_everything`).

  So what a fault that does not grow asks for is one half exactly where the latency is
  projected to fall, by 15 percent or more (`steady_fault_iff`).
-/

import EliteTelemetry.Forecaster.Overload

namespace EliteTelemetry.Forecaster

open EliteTelemetry.Lib.GoNumbers

def growth (lat : Snapshot) : ℚ := lat.projected / (lat.ewma + 1 / 1000000000)

def latencyOverload (lat : Snapshot) : ℚ := computeOverloadFraction (growth lat) 1

theorem fusedOverload_fault {lat : Snapshot} (hfault : lat.fault = true) (o : ℚ) :
    fusedOverload lat o = max (max o (latencyOverload lat)) (1 / 2) := by
  have hmax : ∀ a b : ℚ, (if a < b then b else a) = max a b := by
    intro a b
    split
    · next h => exact (max_eq_right h.le).symm
    · next h => exact (max_eq_left (not_lt.mp h)).symm
  simp only [fusedOverload, hfault, if_true, hmax]
  rfl

theorem computeOverloadFraction_one (rho : ℚ) :
    computeOverloadFraction rho 1 = if rho ≤ 7 / 10 then 0 else min 1 ((rho - 7 / 10) / (3 / 10)) := by
  have htarget : (1 : ℚ) - 7 / 10 = 3 / 10 := by norm_num
  simp only [computeOverloadFraction, le_refl, or_true, if_true, htarget]
  by_cases hrho : rho ≤ 7 / 10
  · rw [if_pos hrho, if_pos hrho]
  · rw [if_neg hrho, if_neg hrho]
    have hpos : 0 ≤ (rho - 7 / 10) / (3 / 10) := div_nonneg (by linarith) (by norm_num)
    by_cases hone : 1 < (rho - 7 / 10) / (3 / 10)
    · rw [if_pos hone, min_eq_left hone.le]
    · rw [if_neg hone, if_neg (not_lt.mpr hpos), min_eq_right (not_lt.mp hone)]

theorem latencyOverload_le_half_iff (lat : Snapshot) : latencyOverload lat ≤ 1 / 2 ↔ growth lat ≤ 17 / 20 := by
  unfold latencyOverload
  rw [computeOverloadFraction_one]
  split
  · next h =>
    refine iff_of_true (by norm_num) (h.trans (by norm_num))
  · rw [min_le_iff, or_iff_right (by norm_num), div_le_iff₀ (by norm_num)]
    constructor <;> intro h <;> linarith

theorem growth_le_iff {lat : Snapshot} (hewma : 0 < lat.ewma) (x : ℚ) :
    growth lat ≤ x ↔ lat.projected ≤ x * (lat.ewma + 1 / 1000000000) :=
  div_le_iff₀ (by linarith)

/-- What a latency fault is to ask for: one half where the latency does not grow, and more only
    where it does. -/
def SteadyHalf (cv : Conv) (lat : Snapshot) (traffic : TrafficSnapshot) (gamma : ℚ) : Prop :=
  (lat.projected ≤ lat.ewma → (fuseOverload cv lat traffic gamma).overload = max traffic.overload (1 / 2)) ∧
    (1 / 2 < latencyOverload lat → lat.ewma < lat.projected)

/-- That is what it asks for exactly where the latency grows, or falls by 15 percent or more. -/
theorem steady_fault_iff (cv : Conv) {lat : Snapshot} (traffic : TrafficSnapshot) (gamma : ℚ)
    (hfault : lat.fault = true) (hewma : 0 < lat.ewma) :
    SteadyHalf cv lat traffic gamma ↔
      lat.ewma < lat.projected ∨ lat.projected ≤ 17 / 20 * (lat.ewma + 1 / 1000000000) := by
  rw [← growth_le_iff hewma, ← latencyOverload_le_half_iff]
  constructor
  · intro ⟨_, hgrows⟩
    by_cases hhalf : latencyOverload lat ≤ 1 / 2
    · exact .inr hhalf
    · exact .inl (hgrows (not_le.mp hhalf))
  · intro h
    refine ⟨fun hsteady => ?_, fun hterm => ?_⟩
    · have hhalf : latencyOverload lat ≤ 1 / 2 := h.resolve_left (not_lt.mpr hsteady)
      show fusedOverload lat traffic.overload = _
      rw [fusedOverload_fault hfault, max_assoc, max_eq_right hhalf]
    · exact h.resolve_right (not_le.mpr hterm)

def faultAt (projected : ℚ) : Snapshot :=
  { raw := 100, ewma := 100, velocity := 0, acceleration := 0, projected := projected, fault := true, cause := .none,
    samples := 10, overloadFraction := 0, shedPpm := 0, rhoProjected := 0, connRate := 0 }

def noTraffic : TrafficSnapshot :=
  { connCount := 0, lambdaEwma := 0, velocity := 0, acceleration := 0, rhoNow := 0, rhoProjected := 0, overload := 0,
    preFault := false }

theorem steady_fault_falling : SteadyHalf saturating (faultAt 80) noTraffic 2 :=
  (steady_fault_iff saturating noTraffic 2 rfl (by norm_num [faultAt])).mpr (.inr (by norm_num [faultAt]))

/-- A latency that stands still sheds nearly everything. -/
theorem a_steady_fault_sheds_nearly_everything :
    (faultAt 100).projected ≤ (faultAt 100).ewma ∧
      999 / 1000 < (fuseOverload saturating (faultAt 100) noTraffic 2).overload ∧
      ¬SteadyHalf saturating (faultAt 100) noTraffic 2 := by
  have hterm : latencyOverload (faultAt 100) = (100 / (100 + 1 / 1000000000) - 7 / 10) / (3 / 10) := by
    unfold latencyOverload growth faultAt
    rw [computeOverloadFraction_one, if_neg (by norm_num), min_eq_right (by norm_num)]
  have hover : 999 / 1000 < (fuseOverload saturating (faultAt 100) noTraffic 2).overload := by
    show _ < fusedOverload (faultAt 100) 0
    rw [fusedOverload_fault rfl, hterm]
    norm_num
  refine ⟨le_refl _, hover, fun h => ?_⟩
  rw [h.1 (le_refl _)] at hover
  norm_num [noTraffic] at hover

end EliteTelemetry.Forecaster
