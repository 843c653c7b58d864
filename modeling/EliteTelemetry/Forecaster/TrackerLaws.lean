/-
  EliteTelemetry.Forecaster.TrackerLaws — what every snapshot of a tracker obeys
  (`KinematicTracker.Observe` of `pkg/forecaster/kinematic.go`, `ewma.go`).

  Whatever the samples and their times are, and in both ways of taking the velocity: the
  average lies between the least and the greatest sample so far, the projection is not below
  the average, an average at the hard drop is a fault, and a fault means that the projection
  is at the hard drop and the average at three tenths of it (`tracker_laws`).

  The first needs only that the average's weight is in (0, 1], which `NewEWMA` sees to. The
  others are facts about `project`: it looks ahead only where velocity and acceleration are
  positive.
-/

import EliteTelemetry.Forecaster.Kinematic
import EliteTelemetry.Lib.Machine
import Mathlib.Tactic.Positivity

namespace EliteTelemetry.Forecaster

open EliteTelemetry.Lib.GoNumbers EliteTelemetry.Lib.Machine

/-! ## The average -/

theorem Ewma.update_alpha (e : Ewma) (x : ℚ) : (e.update x).alpha = e.alpha := by
  unfold Ewma.update
  split <;> rfl

theorem Ewma.update_init (e : Ewma) (x : ℚ) : (e.update x).init = true := by
  unfold Ewma.update
  split
  · assumption
  · rfl

theorem newEwma_alpha_range (alpha : ℚ) : 0 < (newEwma alpha).alpha ∧ (newEwma alpha).alpha ≤ 1 := by
  unfold newEwma
  simp only
  split
  · norm_num
  · split
    · norm_num
    · exact ⟨not_le.mp ‹_›, not_lt.mp ‹_›⟩

theorem Ewma.update_range {e : Ewma} {x lo hi : ℚ} (ha : 0 < e.alpha ∧ e.alpha ≤ 1) (hx : lo ≤ x ∧ x ≤ hi)
    (hv : e.init = true → lo ≤ e.value ∧ e.value ≤ hi) : lo ≤ (e.update x).value ∧ (e.update x).value ≤ hi := by
  unfold Ewma.update
  split
  · rename_i hinit
    have hb : 0 ≤ 1 - e.alpha := sub_nonneg.mpr ha.2
    obtain ⟨hlo, hhi⟩ := hv hinit
    constructor
    · calc lo = e.alpha * lo + (1 - e.alpha) * lo := by ring
        _ ≤ e.alpha * x + (1 - e.alpha) * e.value :=
          add_le_add (mul_le_mul_of_nonneg_left hx.1 ha.1.le) (mul_le_mul_of_nonneg_left hlo hb)
    · calc e.alpha * x + (1 - e.alpha) * e.value ≤ e.alpha * hi + (1 - e.alpha) * hi :=
          add_le_add (mul_le_mul_of_nonneg_left hx.2 ha.1.le) (mul_le_mul_of_nonneg_left hhi hb)
        _ = hi := by ring
  · exact hx

/-! ## The projection -/

namespace KinematicTracker

/-- The settings for which the laws hold. -/
structure Proper (cfg : KinematicConfig) : Prop where
  hardDrop : 0 < cfg.hardDrop
  accThreshold : 0 ≤ cfg.accThreshold
  horizon : 0 < cfg.horizon

variable {k : KinematicTracker}

theorem le_projected (hk : Proper k.cfg) (s vel acc : ℚ) : s ≤ (k.project s vel acc).1 := by
  simp only [project]
  split
  · rename_i hup
    have hh : 0 < seconds k.cfg.horizon := seconds_pos hk.horizon
    have hvel : 0 < vel := hup.2.1
    have hacc : 0 < acc := lt_of_le_of_lt hk.accThreshold hup.2.2
    have hahead : 0 < vel * seconds k.cfg.horizon + 1 / 2 * acc * seconds k.cfg.horizon * seconds k.cfg.horizon := by
      positivity
    linarith
  · split <;> exact le_refl s

theorem fault_of_hardDrop_le (hk : Proper k.cfg) {s : ℚ} (hs : k.cfg.hardDrop ≤ s) (vel acc : ℚ) :
    (k.project s vel acc).2 = true := by
  have hprojected := le_projected hk s vel acc
  have hdrop := hk.hardDrop
  simp only [project] at hprojected ⊢
  split
  · rename_i hup
    rw [if_pos hup] at hprojected
    simp only [decide_eq_true_eq]
    exact ⟨le_trans hs hprojected, by linarith⟩
  · rfl

theorem le_of_fault (hk : Proper k.cfg) {s vel acc : ℚ} (h : (k.project s vel acc).2 = true) :
    k.cfg.hardDrop ≤ (k.project s vel acc).1 ∧ 3 / 10 * k.cfg.hardDrop ≤ s := by
  have hdrop := hk.hardDrop
  simp only [project] at h ⊢
  split at h
  · rename_i hup
    rw [if_pos hup]
    simp only [decide_eq_true_eq] at h
    exact ⟨h.1, by linarith [h.2]⟩
  · rename_i hup
    rw [if_neg hup]
    split at h
    · rename_i hs
      rw [if_pos hs]
      exact ⟨hs, by linarith⟩
    · cases h

/-! ## Whole runs -/

def sample (k : KinematicTracker) (x : ℚ × Time) : KinematicSnapshot × KinematicTracker := k.observe x.1 x.2

structure Averages (samples : List ℚ) (k : KinematicTracker) : Prop where
  alpha : 0 < k.ewma.alpha ∧ k.ewma.alpha ≤ 1
  range : k.ewma.init = true → ∀ lo hi, (∀ y ∈ samples, lo ≤ y ∧ y ≤ hi) → lo ≤ k.ewma.value ∧ k.ewma.value ≤ hi

theorem Averages.observe {samples : List ℚ} (h : Averages samples k) (x : ℚ) (now : Time) :
    Averages (samples ++ [x]) (k.observe x now).2 := by
  constructor
  · show 0 < (k.ewma.update x).alpha ∧ (k.ewma.update x).alpha ≤ 1
    rw [Ewma.update_alpha]
    exact h.alpha
  · intro _ lo hi hbounds
    exact Ewma.update_range h.alpha (hbounds x (by simp)) fun hinit => h.range hinit lo hi fun y hy => hbounds y (by simp [hy])

theorem Averages.exec {samples : List ℚ} (h : Averages samples k) (es : List (ℚ × Time)) :
    Averages (samples ++ es.map (·.1)) (exec sample k es).2 := by
  induction es generalizing k samples with
  | nil => simpa using h
  | cons e es ih =>
    have hrest := ih (h.observe e.1 e.2)
    rwa [List.append_assoc] at hrest

theorem exec_cfg (es : List (ℚ × Time)) : (exec sample k es).2.cfg = k.cfg := by
  induction es generalizing k with
  | nil => rfl
  | cons e es ih => exact ih

end KinematicTracker

theorem orDefault_of_ne {α : Type} [Zero α] [DecidableEq α] {x dflt : α} (h : x ≠ 0) : orDefault x dflt = x := if_neg h

theorem newKinematicTracker_proper {cfg : KinematicConfig} (h : KinematicTracker.Proper cfg) :
    KinematicTracker.Proper (newKinematicTracker cfg).cfg ∧ (newKinematicTracker cfg).cfg.hardDrop = cfg.hardDrop := by
  have hdrop : (newKinematicTracker cfg).cfg.hardDrop = cfg.hardDrop := orDefault_of_ne h.hardDrop.ne'
  have hhorizon : (newKinematicTracker cfg).cfg.horizon = cfg.horizon := orDefault_of_ne h.horizon.ne'
  refine ⟨⟨hdrop ▸ h.hardDrop, ?_, hhorizon ▸ h.horizon⟩, hdrop⟩
  show 0 ≤ orDefault cfg.accThreshold (1 / 1000)
  unfold orDefault
  split
  · norm_num
  · exact h.accThreshold

/-- The laws hold of every snapshot: of the one taken at a sample after any others. -/
theorem tracker_laws {cfg : KinematicConfig} (h : KinematicTracker.Proper cfg) (es : List (ℚ × Time)) (x : ℚ) (now : Time) :
    let samples := es.map (·.1) ++ [x]
    let snap := ((exec KinematicTracker.sample (newKinematicTracker cfg) es).2.observe x now).1
    (∀ lo hi, IsLeast {y | y ∈ samples} lo → IsGreatest {y | y ∈ samples} hi → lo ≤ snap.ewma ∧ snap.ewma ≤ hi) ∧
      snap.ewma ≤ snap.projected ∧
      (cfg.hardDrop ≤ snap.ewma → snap.fault = true) ∧
      (snap.fault = true → cfg.hardDrop ≤ snap.projected ∧ 3 / 10 * cfg.hardDrop ≤ snap.ewma) := by
  intro samples snap
  have hnew : KinematicTracker.Averages [] (newKinematicTracker cfg) :=
    ⟨newEwma_alpha_range _, fun hinit => absurd hinit Bool.false_ne_true⟩
  have haverages := (hnew.exec es).observe x now
  obtain ⟨hproper, hdrop⟩ := newKinematicTracker_proper h
  rw [← KinematicTracker.exec_cfg (k := newKinematicTracker cfg) es] at hproper hdrop
  rw [← hdrop]
  refine ⟨fun lo hi hlo hhi => ?_, KinematicTracker.le_projected hproper _ _ _,
    fun hle => KinematicTracker.fault_of_hardDrop_le hproper hle _ _, KinematicTracker.le_of_fault hproper⟩
  exact haverages.range (Ewma.update_init _ _) lo hi fun y hy => ⟨hlo.2 hy, hhi.2 hy⟩

def ringConfig : KinematicConfig :=
  { alpha := 3 / 10, window := 8, horizon := 5 * second, hardDrop := 1 / 10, accThreshold := 1 / 1000,
    sampleInterval := second, useRingLS := true }

theorem tracker_laws_ring :
    let snap := ((exec KinematicTracker.sample (newKinematicTracker ringConfig) [(1 / 100, 0), (1 / 50, 0)]).2.observe
      (1 / 10) second).1
    snap.ewma ≤ snap.projected := by
  have hproper : KinematicTracker.Proper ringConfig := ⟨by decide +kernel, by decide +kernel, by decide +kernel⟩
  exact (tracker_laws hproper [(1 / 100, 0), (1 / 50, 0)] (1 / 10) second).2.1

end EliteTelemetry.Forecaster
