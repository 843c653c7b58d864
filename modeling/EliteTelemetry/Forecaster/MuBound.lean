/-
  EliteTelemetry.Forecaster.MuBound — how large the service-rate estimate can get
  (`MuEstimator.Observe` of `pkg/forecaster/mu_estimator.go`).

  The estimate is an average of pass rates, so it should lie below the floor it starts from
  or below the largest rate there was (`top`). The code takes the packets passed since the
  last reading as a difference of 64-bit counters. A counter that falls, because the
  program was loaded again or because `ReadXDPStats` failed and answered zeros, makes a
  difference near `2^64`.

  A reading is folded into the estimate from the third sample on, if the overload is low
  (`Folds`). `estimate_bounded_iff` says that the estimate stays below `top` in a run
  exactly as long as no folded reading falls behind the last one, save where the wrapped
  rate happens to be within the room the estimate has left (`Tolerable`). The times may
  come in any order.
-/

import EliteTelemetry.Forecaster.Overload
import EliteTelemetry.Lib.Machine

namespace EliteTelemetry.Forecaster

open EliteTelemetry.Lib.GoNumbers EliteTelemetry.Lib.Machine
open EliteTelemetry.Xdp (XdpStat)

/-- What one call of `Observe` is given, and what no counter tells: `passed`, the packets
    that went through since a restart of the counter. -/
structure MuReading where
  stats : XdpStat
  overload : ℚ
  now : Time
  passed : UInt64
  deriving DecidableEq, Repr

variable {m : MuEstimator} {r : MuReading}

namespace MuEstimator

def interval (m : MuEstimator) (r : MuReading) : Option ℚ :=
  m.lastAt.bind fun lastAt =>
    let dt := seconds (timeSub r.now lastAt)
    if dt < 1 / 20 then none else some dt

/-- The packets passed in the interval. A counter that fell has restarted, and cannot have
    passed more than it shows. -/
def truePassed (m : MuEstimator) (r : MuReading) : ℕ :=
  if m.lastPass ≤ r.stats.pass then r.stats.pass.toNat - m.lastPass.toNat
  else min r.passed.toNat r.stats.pass.toNat

def Folds (m : MuEstimator) (r : MuReading) (dt : ℚ) : Prop :=
  m.interval r = some dt ∧ r.overload ≤ 1 / 2 ∧ r.stats.pass ≠ m.lastPass ∧ minSamples ≤ m.sampleCount + 1

/-! ## One reading -/

theorem interval_eq_some {dt : ℚ} :
    m.interval r = some dt ↔ ∃ lastAt, m.lastAt = some lastAt ∧ seconds (timeSub r.now lastAt) = dt ∧ ¬ dt < 1 / 20 := by
  unfold interval
  rw [Option.bind_eq_some_iff]
  refine exists_congr fun lastAt => and_congr_right fun _ => ?_
  simp only
  constructor
  · intro h
    split at h
    · cases h
    · rename_i hlt
      cases h
      exact ⟨rfl, hlt⟩
  · rintro ⟨rfl, hlt⟩
    exact if_neg hlt

theorem observe_folds {dt : ℚ} (h : m.Folds r dt) :
    (m.observe r.stats r.overload r.now).muEst =
      7 / 10 * m.muEst + 3 / 10 * ((r.stats.pass - m.lastPass).toNat / dt) := by
  obtain ⟨hint, hover, hne, hcount⟩ := h
  obtain ⟨lastAt, hlast, hdt, hlt⟩ := interval_eq_some.mp hint
  have hdelta : ¬ (1 / 2 < r.overload ∨ r.stats.pass - m.lastPass = 0) := by
    rintro (hhigh | hzero)
    · exact absurd hover (not_le.mpr hhigh)
    · apply hne
      rw [← UInt64.sub_add_cancel r.stats.pass m.lastPass, hzero, UInt64.zero_add]
  unfold observe
  rw [hlast]
  simp only [hdt]
  rw [if_neg hlt, if_neg hdelta, if_pos hcount]

theorem observe_keeps (h : ∀ dt, ¬ m.Folds r dt) : (m.observe r.stats r.overload r.now).muEst = m.muEst := by
  unfold observe
  cases hlast : m.lastAt with
  | none => rfl
  | some lastAt =>
    simp only
    split
    · rfl
    · rename_i hlt
      split
      · rfl
      · rename_i hlow
        rw [not_or, not_lt] at hlow
        split
        · rename_i hcount
          -- every guard was passed, so the reading folds
          refine absurd ⟨interval_eq_some.mpr ⟨lastAt, hlast, rfl, hlt⟩, hlow.1, ?_, hcount⟩ (h _)
          intro heq
          exact hlow.2 (by rw [heq, UInt64.sub_self])
        · rfl

end MuEstimator

/-! ## A run of readings -/

structure MuWatch where
  est : MuEstimator
  top : ℚ
  deriving DecidableEq, Repr

namespace MuWatch

def start (floor : ℚ) : MuWatch := ⟨newMuEstimator floor, (newMuEstimator floor).muEst⟩

def topAfter (w : MuWatch) (r : MuReading) : ℚ :=
  match w.est.interval r with
  | none => w.top
  | some dt => max w.top (w.est.truePassed r / dt)

def step (w : MuWatch) (r : MuReading) : ℚ × MuWatch :=
  let est := w.est.observe r.stats r.overload r.now
  (est.muEst, ⟨est, w.topAfter r⟩)

def Bounded (w : MuWatch) : Prop := w.est.muEst ≤ w.top

instance (w : MuWatch) : Decidable w.Bounded := inferInstanceAs (Decidable (_ ≤ _))

/-- A folded counter that fell: the wrapped rate is within what the average can take. -/
def Tolerable (w : MuWatch) (r : MuReading) : Prop :=
  ∀ dt, w.est.Folds r dt → r.stats.pass < w.est.lastPass →
    (2 ^ 64 - (w.est.lastPass.toNat - r.stats.pass.toNat) : ℚ) / dt ≤
      w.topAfter r + 7 / 3 * (w.topAfter r - w.est.muEst)

theorem top_le_topAfter (w : MuWatch) (r : MuReading) : w.top ≤ w.topAfter r := by
  unfold topAfter
  split
  · exact le_refl _
  · exact le_max_left _ _

theorem rate_le_topAfter {w : MuWatch} {dt : ℚ} (h : w.est.interval r = some dt) :
    w.est.truePassed r / dt ≤ w.topAfter r := by
  unfold topAfter
  rw [h]
  exact le_max_right _ _

theorem toNat_delta_of_le (h : m.lastPass ≤ r.stats.pass) : (r.stats.pass - m.lastPass).toNat = m.truePassed r := by
  unfold MuEstimator.truePassed
  rw [if_pos h]
  exact UInt64.toNat_sub_of_le _ _ h

theorem toNat_delta_of_lt (h : r.stats.pass < m.lastPass) :
    ((r.stats.pass - m.lastPass).toNat : ℚ) = 2 ^ 64 - (m.lastPass.toNat - r.stats.pass.toNat) := by
  have hlt := UInt64.lt_iff_toNat_lt.mp h
  have hlast := m.lastPass.toNat_lt
  have hsub : (r.stats.pass - m.lastPass).toNat = 2 ^ 64 - m.lastPass.toNat + r.stats.pass.toNat := by
    rw [UInt64.toNat_sub]
    exact Nat.mod_eq_of_lt (by omega)
  rw [hsub, Nat.cast_add, Nat.cast_sub (le_of_lt hlast)]
  push_cast
  ring

theorem bounded_step_iff {w : MuWatch} (hw : w.Bounded) (r : MuReading) : (w.step r).2.Bounded ↔ w.Tolerable r := by
  have htop := w.top_le_topAfter r
  unfold Bounded at hw ⊢
  simp only [step]
  by_cases hf : ∃ dt, w.est.Folds r dt
  · obtain ⟨dt, hdt⟩ := hf
    rw [MuEstimator.observe_folds hdt]
    by_cases hfell : r.stats.pass < w.est.lastPass
    · rw [toNat_delta_of_lt hfell]
      constructor
      · intro h dt' hdt' _
        cases hdt.1.symm.trans hdt'.1
        linarith
      · intro h
        have := h dt hdt hfell
        linarith
    · refine iff_of_true ?_ (fun _ _ hlt => absurd hlt hfell)
      rw [toNat_delta_of_le (UInt64.not_lt.mp hfell)]
      have hrate := rate_le_topAfter hdt.1
      linarith
  · have hf' : ∀ dt, ¬ w.est.Folds r dt := fun dt hdt => hf ⟨dt, hdt⟩
    rw [MuEstimator.observe_keeps hf']
    exact iff_of_true (le_trans hw htop) (fun dt hdt => absurd hdt (hf' dt))

end MuWatch

/-- Over every sequence of readings the estimate stays below its start and the largest true
    rate exactly where no folded reading falls by an intolerable wrap. -/
theorem estimate_bounded_iff (floor : ℚ) (readings : List MuReading) :
    always MuWatch.step MuWatch.Bounded (MuWatch.start floor) readings ↔
      along MuWatch.step MuWatch.Tolerable (MuWatch.start floor) readings :=
  always_iff_along (I := MuWatch.Bounded) (fun _ hw => hw) (fun _ r hw h => (MuWatch.bounded_step_iff hw r).mpr h)
    (fun _ r hw h hb => h ((MuWatch.bounded_step_iff hw r).mp hb)) (le_refl _) readings

/-- Four readings a second apart, of 100 packets each, the last after a failed read. -/
theorem a_failed_read_blows_up_the_estimate :
    let read (pass : UInt64) (k : ℤ) : MuReading := ⟨⟨pass, 0, 0⟩, 0, k * second, pass⟩
    let readings := [read 100 1, read 200 2, read 300 3, read 0 4]
    let w := (exec MuWatch.step (MuWatch.start 1000) readings).2
    w.top = 1000 ∧ w.est.muEst = 700 + 3 / 10 * (2 ^ 64 - 300) ∧
      ¬ always MuWatch.step MuWatch.Bounded (MuWatch.start 1000) readings := by
  refine ⟨by decide +kernel, by decide +kernel, ?_⟩
  rintro ⟨-, -, -, -, hlast⟩
  exact absurd (always_head hlast) (by decide +kernel)

end EliteTelemetry.Forecaster
