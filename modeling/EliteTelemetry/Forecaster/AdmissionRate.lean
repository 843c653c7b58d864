/-
  EliteTelemetry.Forecaster.AdmissionRate — the token rate that the kernel is given, against
  the service rate it stands for (`traffic_engine.go`, `SyncPolicyToBPFMap` of
  `policy_bpf_sync.go`).

  The writer of the map does not know the service rate. It takes the arrival rate and divides
  it by the projected load, which gives the service rate back where the projection is the
  present rate, and less where it is above (`div_projected_le`). But it does so for a load
  below one only: under overload what is written is the arrival rate itself.

  So what is written is at most the service rate exactly where the arrival rate, cut to a
  whole number, is (`admission_rate_le_iff`).
-/

import EliteTelemetry.Forecaster.ShedRate
import EliteTelemetry.Forecaster.TrackerLaws

namespace EliteTelemetry.Forecaster

open EliteTelemetry.Lib.GoNumbers
open EliteTelemetry.Xdp (XdpStat)

/-! ## The engine -/

inductive Observation where
  | lambda (rate : ℚ) (now : Time)
  | conn (count : ℚ) (now : Time)
  deriving DecidableEq, Repr

namespace TrafficEngine

def observe (te : TrafficEngine) : Observation → TrafficSnapshot × TrafficEngine
  | .lambda rate now => te.observeLambda rate now
  | .conn count now => te.observeConn count now

inductive Reached : TrafficEngine → Prop
  | new (cfg : TrafficConfig) : Reached (newTrafficEngine cfg)
  | observe {te : TrafficEngine} (o : Observation) : Reached te → Reached (te.observe o).2
  | setMuEst {te : TrafficEngine} (mu : ℚ) : Reached te → Reached (te.setMuEst mu)

end TrafficEngine

theorem newTrafficEngine_proper (cfg : TrafficConfig) : KinematicTracker.Proper (newTrafficEngine cfg).tracker.cfg := by
  have hmu : (0 : ℚ) < orPositive cfg.muEst 1000 := orPositive_pos (by norm_num)
  have hrho : (0 : ℚ) < orPositive cfg.rhoTarget (7 / 10) := orPositive_pos (by norm_num)
  have hacc : (0 : ℚ) < orPositive cfg.accThreshold (1 / 1000) := orPositive_pos (by norm_num)
  have hhorizon : 0 < orPositive cfg.horizon (5 * second) := orPositive_pos (by decide)
  unfold newTrafficEngine
  apply And.left
  apply newKinematicTracker_proper
  exact ⟨mul_pos hmu hrho, hacc.le, hhorizon⟩

theorem TrafficEngine.Reached.proper {te : TrafficEngine} (h : te.Reached) :
    KinematicTracker.Proper te.tracker.cfg := by
  induction h with
  | new cfg => exact newTrafficEngine_proper cfg
  | observe o _ ih => cases o <;> exact ih
  | setMuEst mu _ ih =>
    unfold TrafficEngine.setMuEst
    split <;> exact ih

theorem lambdaEwma_le {te : TrafficEngine} (h : te.Reached) (hmu : 0 < te.cfg.muEst) (o : Observation) :
    (te.observe o).1.lambdaEwma ≤ (te.observe o).1.rhoProjected * te.cfg.muEst := by
  have hrate : ∀ (te : TrafficEngine) (count rate : ℚ) (now : Time), KinematicTracker.Proper te.tracker.cfg →
      0 < te.cfg.muEst →
      (te.observeRate count rate now).1.lambdaEwma ≤ (te.observeRate count rate now).1.rhoProjected * te.cfg.muEst := by
    intro te count rate now hproper hmu
    simp only [TrafficEngine.observeRate, if_neg (not_le.mpr hmu)]
    rw [div_mul_cancel₀ _ hmu.ne']
    exact KinematicTracker.le_projected hproper _ _ _
  cases o with
  | lambda rate now => exact hrate te rate rate now h.proper hmu
  | conn count now => exact hrate { te with prevConn := count, lastAt := now, havePrev := true } _ _ _ h.proper hmu

/-! ## What is written -/

/-- The `mu_tokens_per_sec` in the map after a tick that sees this latency and this traffic. -/
def writtenMu (cv : Conv) (gamma : ℚ) (shedCtrl : Bool) (stats : XdpStat) (ifindex : UInt32) (lat : Snapshot)
    (traffic : TrafficSnapshot) : UInt32 :=
  (policyValue cv (overloaded cv gamma shedCtrl stats lat traffic) ifindex).muTokensPerSec

theorem writtenMu_eq (cv : Conv) (gamma : ℚ) (shedCtrl : Bool) (stats : XdpStat) (ifindex : UInt32) (lat : Snapshot)
    (traffic : TrafficSnapshot) :
    writtenMu cv gamma shedCtrl stats ifindex lat traffic =
      let mu := if cv.u32 traffic.lambdaEwma = 0 then 10000 else cv.u32 traffic.lambdaEwma
      if 0 < traffic.rhoProjected ∧ traffic.rhoProjected < 1 then cv.u32 (mu.toNat / traffic.rhoProjected) else mu := by
  unfold writtenMu policyValue policyMu overloaded
  simp only
  split <;> rfl

theorem u32_le (cv : Conv) {x : ℚ} (h : 0 ≤ x) : ((cv.u32 x).toNat : ℚ) ≤ x ∨ (2 ^ 32 : ℚ) ≤ x := by
  by_cases hx : x < 2 ^ 32
  · left
    have hfits := cv.u32_fits x (by linarith) hx
    rw [trunc_of_nonneg h] at hfits
    calc ((cv.u32 x).toNat : ℚ) = ((⌊x⌋ : ℤ) : ℚ) := by exact_mod_cast congrArg (Int.cast (R := ℚ)) hfits
      _ ≤ x := Int.floor_le x
  · exact .inr (not_lt.mp hx)

theorem u32_lt (x : UInt32) : (x.toNat : ℚ) ≤ 2 ^ 32 - 1 := by
  have hlt : x.toNat + 1 ≤ 2 ^ 32 := x.toNat_lt
  have hcast : (x.toNat : ℚ) + 1 ≤ 2 ^ 32 := by exact_mod_cast hlt
  linarith

theorem cast_toNat {n : ℤ} (h : 0 ≤ n) : (n.toNat : ℚ) = (n : ℚ) := by
  exact_mod_cast congrArg (Int.cast (R := ℚ)) (Int.toNat_of_nonneg h)

theorem rate_le (cv : Conv) {x : ℚ} (h : 1 ≤ x) :
    ((if cv.u32 x = 0 then 10000 else cv.u32 x : UInt32).toNat : ℚ) ≤ min (⌊x⌋ : ℚ) (2 ^ 32 - 1) := by
  refine le_min_iff.mpr ⟨?_, u32_lt _⟩
  by_cases hx : x < 2 ^ 32
  · have hfloor := u32_floor cv (by linarith : 0 ≤ x) hx
    have hone : 1 ≤ ⌊x⌋ := Int.le_floor.mpr (by exact_mod_cast h)
    have hne : cv.u32 x ≠ 0 := by
      intro hzero
      rw [hzero] at hfloor
      have : (0 : UInt32).toNat = 0 := rfl
      omega
    rw [if_neg hne, hfloor]
    exact (cast_toNat (by omega)).le
  · have hroom : (2 ^ 32 : ℤ) ≤ ⌊x⌋ := Int.le_floor.mpr (by exact_mod_cast not_lt.mp hx)
    have hroom' : (2 ^ 32 : ℚ) ≤ (⌊x⌋ : ℚ) := by exact_mod_cast hroom
    linarith [u32_lt (if cv.u32 x = 0 then 10000 else cv.u32 x)]

theorem rate_saturating {x : ℚ} (h : 1 ≤ x) :
    ((if saturating.u32 x = 0 then 10000 else saturating.u32 x : UInt32).toNat : ℚ) =
      min (⌊x⌋ : ℚ) (2 ^ 32 - 1) := by
  have hone : 1 ≤ ⌊x⌋ := Int.le_floor.mpr (by exact_mod_cast h)
  have hclamp : (saturating.u32 x).toNat = min ⌊x⌋.toNat (2 ^ 32 - 1) := by
    show (UInt32.ofNat (clampNat (2 ^ 32) x)).toNat = _
    rw [UInt32.toNat_ofNat', clampNat, trunc_of_nonneg (by linarith)]
    omega
  have hne : saturating.u32 x ≠ 0 := by
    intro hzero
    rw [hzero] at hclamp
    have : (0 : UInt32).toNat = 0 := rfl
    omega
  rw [if_neg hne, hclamp, Nat.cast_min, cast_toNat (by omega)]
  norm_num

theorem div_projected_le {rate lambda rho mu : ℚ} (hrate : rate ≤ lambda) (hproj : lambda ≤ rho * mu) (hrho : 0 < rho) :
    rate / rho ≤ mu := by
  rw [div_le_iff₀ hrho]
  linarith

/-- Whatever an implementation makes of numbers that do not fit, the rate written is at most the
    service rate exactly where the rate of arrivals is, in whole numbers a second. -/
theorem admission_rate_le_iff {te : TrafficEngine} (h : te.Reached) (hmu : 1 ≤ te.cfg.muEst) (o : Observation)
    (hrate : 1 ≤ (te.observe o).1.lambdaEwma) (gamma : ℚ) (shedCtrl : Bool) (stats : XdpStat) (ifindex : UInt32)
    (lat : Snapshot) :
    (∀ cv : Conv, ((writtenMu cv gamma shedCtrl stats ifindex lat (te.observe o).1).toNat : ℚ) ≤ te.cfg.muEst) ↔
      min (⌊(te.observe o).1.lambdaEwma⌋ : ℚ) (2 ^ 32 - 1) ≤ te.cfg.muEst := by
  have hproj := lambdaEwma_le h (by linarith) o
  simp only [writtenMu_eq]
  generalize (te.observe o).1.lambdaEwma = lambda at hrate hproj ⊢
  generalize (te.observe o).1.rhoProjected = rho at hproj ⊢
  generalize te.cfg.muEst = mu at hmu hproj ⊢
  have hrho : 0 < rho := by
    by_contra hneg
    have := mul_nonpos_of_nonpos_of_nonneg (not_lt.mp hneg) (by linarith : 0 ≤ mu)
    linarith
  by_cases hlow : rho < 1
  · -- below one the load divides the rate, and both sides hold
    simp only [hrho, hlow, and_self, if_true]
    have hlambda : lambda ≤ mu := hproj.trans (mul_le_of_le_one_left (by linarith) hlow.le)
    refine iff_of_true (fun cv => ?_) ((min_le_left _ _).trans ((Int.floor_le lambda).trans hlambda))
    have hle := (rate_le cv hrate).trans ((min_le_left _ _).trans (Int.floor_le lambda))
    generalize (if cv.u32 lambda = 0 then 10000 else cv.u32 lambda : UInt32) = rate at hle ⊢
    have hdiv := div_projected_le hle hproj hrho
    rcases u32_le cv (div_nonneg (Nat.cast_nonneg rate.toNat) hrho.le) with hcut | hroom
    · exact hcut.trans hdiv
    · linarith [u32_lt (cv.u32 (rate.toNat / rho))]
  · simp only [hlow, and_false, if_false]
    constructor
    · intro hall
      rw [← rate_saturating hrate]
      exact hall saturating
    · intro hle cv
      exact (rate_le cv hrate).trans hle

def defaultEngine : TrafficEngine := newTrafficEngine ⟨0, 0, 0, 0, 0, 0, 0, 0⟩

theorem admission_rate_le_half :
    1 ≤ defaultEngine.cfg.muEst ∧ 1 ≤ (defaultEngine.observe (.lambda 500 second)).1.lambdaEwma ∧
      ((writtenMu saturating 2 true ⟨0, 0, 0⟩ 0 calmLatency (defaultEngine.observe (.lambda 500 second)).1).toNat : ℚ) ≤
        defaultEngine.cfg.muEst := by
  have hmu : 1 ≤ defaultEngine.cfg.muEst := by decide +kernel
  have hrate : 1 ≤ (defaultEngine.observe (.lambda 500 second)).1.lambdaEwma := by decide +kernel
  have hle := (admission_rate_le_iff (.new _) hmu _ hrate 2 true ⟨0, 0, 0⟩ 0 calmLatency).mpr (by decide +kernel)
  exact ⟨hmu, hrate, hle saturating⟩

/-- Five times as many connections as can be served are all admitted. -/
theorem an_overload_is_admitted :
    let o : Observation := .lambda 5000 second
    defaultEngine.cfg.muEst = 1000 ∧ (defaultEngine.observe o).1.lambdaEwma = 5000 ∧
      (defaultEngine.observe o).1.overload = 1 ∧
      writtenMu saturating 2 true ⟨0, 0, 0⟩ 0 calmLatency (defaultEngine.observe o).1 = 5000 := by
  decide +kernel

end EliteTelemetry.Forecaster
