/-
  EliteTelemetry.Forecaster.Rebound — a tracker whose samples are a constant level or zero
  (`KinematicTracker.Observe` of `pkg/forecaster/kinematic.go`, velocity from the average).

  A sample of zero pulls the average down, the next one at the level `c` pulls it up again,
  and the tracker sees velocity and acceleration where there is only a gap. Below the hard
  drop a fault needs a projection, so a rising average (`Tracks.fault_iff`).

  At evenly spaced samples only the first `c` after a zero can fault: a zero has no upward
  velocity, and a `c` after a `c` a smaller one than before (`Even`). What that first `c`
  projects grows with the average before the zero (`rebound_mono`), which is `c` at most,
  and is `c` after one sample. So some pattern faults exactly where `c`, zero, `c` does:
  `even_run_calm`, `gap_run_faults`. At other times the acceleration also depends on how two
  intervals compare. There, a level below the floor of a projected fault never faults
  (`low_run_calm`), nor does a run that stays at zero (`unrecovered_run_calm`).
-/

import EliteTelemetry.Forecaster.TrackerLaws

namespace EliteTelemetry.Forecaster

open EliteTelemetry.Lib.GoNumbers EliteTelemetry.Lib.Machine

/-! ## What makes a fault -/

variable {xs : List (ℚ × Time)} {now : Time} {s x : ℚ}

namespace KinematicTracker

theorem project_fault_iff {k : KinematicTracker} (hs : s < k.cfg.hardDrop) (vel acc : ℚ) :
    (k.project s vel acc).2 = true ↔
      (k.havePrev = true ∧ 0 < vel ∧ k.cfg.accThreshold < acc) ∧
        k.cfg.hardDrop ≤ s + vel * seconds k.cfg.horizon + 1 / 2 * acc * seconds k.cfg.horizon * seconds k.cfg.horizon ∧
        k.cfg.hardDrop * (3 / 10) ≤ s := by
  simp only [project]
  split
  · rename_i hup
    simp [hup]
  · rename_i hup
    rw [if_neg (not_le.mpr hs)]
    simp only [hup, false_and, iff_false]
    decide

def average (k : KinematicTracker) (x : ℚ) : ℚ := (k.ewma.update x).value

structure Tracks (c : ℚ) (k : KinematicTracker) : Prop where
  slope : k.cfg.useRingLS = false
  alpha_pos : 0 < k.ewma.alpha
  alpha_le : k.ewma.alpha ≤ 1
  threshold : 0 < k.cfg.accThreshold
  init : k.ewma.init = k.havePrev
  prev : k.havePrev = true → k.prevEwma = k.ewma.value
  nonneg : 0 ≤ k.ewma.value
  le : k.ewma.value ≤ c
  below : c < k.cfg.hardDrop

variable {c : ℚ} {k : KinematicTracker}

theorem Tracks.average_first (h : Tracks c k) (hp : k.havePrev = false) (x : ℚ) : k.average x = x := by
  unfold average Ewma.update
  rw [if_neg (by simp [h.init, hp])]

theorem Tracks.average_next (h : Tracks c k) (hp : k.havePrev = true) (x : ℚ) :
    k.average x = k.ewma.alpha * x + (1 - k.ewma.alpha) * k.ewma.value := by
  unfold average Ewma.update
  rw [if_pos (by simp [h.init, hp])]

theorem Tracks.average_range (h : Tracks c k) (h0 : 0 ≤ x) (hc : x ≤ c) :
    0 ≤ k.average x ∧ k.average x ≤ c :=
  Ewma.update_range ⟨h.alpha_pos, h.alpha_le⟩ ⟨h0, hc⟩ fun _ => ⟨h.nonneg, h.le⟩

theorem Tracks.observe (h : Tracks c k) (h0 : 0 ≤ x) (hc : x ≤ c) (now : Time) : Tracks c (k.observe x now).2 := by
  have halpha := Ewma.update_alpha k.ewma x
  have hinit := Ewma.update_init k.ewma x
  obtain ⟨hlo, hhi⟩ := h.average_range h0 hc
  refine ⟨h.slope, ?_, ?_, h.threshold, hinit, fun _ => rfl, hlo, hhi, h.below⟩
  · show 0 < (k.ewma.update x).alpha
    rw [halpha]
    exact h.alpha_pos
  · show (k.ewma.update x).alpha ≤ 1
    rw [halpha]
    exact h.alpha_le

theorem elapsed_pos (k : KinematicTracker) (now : Time) : 0 < k.elapsed now := by
  simp only [elapsed]
  split
  · split
    · exact one_pos
    · exact not_le.mp ‹_›
  · exact not_le.mp ‹_›

theorem Tracks.derivatives_eq (h : Tracks c k) (hp : k.havePrev = true) (ring : Ring) (s : ℚ) (now : Time) :
    k.derivatives ring s now =
      ((s - k.ewma.value) / k.elapsed now, ((s - k.ewma.value) / k.elapsed now - k.prevVel) / k.elapsed now) := by
  simp only [derivatives, hp, h.slope, h.prev hp, if_true]
  rw [if_neg (by simp)]

theorem Tracks.fault_iff (h : Tracks c k) (h0 : 0 ≤ x) (hc : x ≤ c) (now : Time) :
    (k.observe x now).1.fault = true ↔
      (k.havePrev = true ∧ 0 < (k.observe x now).1.velocity ∧ k.cfg.accThreshold < (k.observe x now).1.acceleration) ∧
        k.cfg.hardDrop ≤ k.average x + (k.observe x now).1.velocity * seconds k.cfg.horizon +
          1 / 2 * (k.observe x now).1.acceleration * seconds k.cfg.horizon * seconds k.cfg.horizon ∧
        k.cfg.hardDrop * (3 / 10) ≤ k.average x :=
  project_fault_iff (lt_of_le_of_lt (h.average_range h0 hc).2 h.below) _ _

/-! ## Runs that cannot fault whatever the times are -/

theorem Tracks.calm_of_low (h : Tracks c k) (hlow : c < k.cfg.hardDrop * (3 / 10)) (h0 : 0 ≤ x) (hc : x ≤ c)
    (now : Time) : (k.observe x now).1.fault = false := by
  rw [← Bool.not_eq_true, h.fault_iff h0 hc]
  rintro ⟨-, -, hfloor⟩
  exact absurd (le_trans hfloor (h.average_range h0 hc).2) (not_le.mpr hlow)

/-- A sample that does not raise the average has no velocity to project. -/
theorem Tracks.calm_of_average_le (h : Tracks c k) (h0 : 0 ≤ x) (hc : x ≤ c)
    (hle : k.havePrev = true → k.average x ≤ k.ewma.value) (now : Time) : (k.observe x now).1.fault = false := by
  rw [← Bool.not_eq_true, h.fault_iff h0 hc]
  rintro ⟨⟨hp, hvel, -⟩, -⟩
  have hvel : 0 < (k.derivatives (k.ring.push x) (k.average x) now).1 := hvel
  rw [h.derivatives_eq hp] at hvel
  have hnonpos := div_nonpos_of_nonpos_of_nonneg (sub_nonpos.mpr (hle hp)) (le_of_lt (k.elapsed_pos now))
  exact absurd hvel (not_lt.mpr hnonpos)

theorem Tracks.average_zero_le (h : Tracks c k) (hp : k.havePrev = true) : k.average 0 ≤ k.ewma.value := by
  rw [h.average_next hp]
  have := mul_nonneg (le_of_lt h.alpha_pos) h.nonneg
  linarith

theorem Tracks.average_top (h : Tracks c k) (htop : k.havePrev = true → k.ewma.value = c) : k.average c = c := by
  cases hp : k.havePrev with
  | false => exact h.average_first hp c
  | true =>
    rw [h.average_next hp, htop hp]
    ring

end KinematicTracker

/-! ## Evenly spaced samples -/

/-- What the first success after a failure projects over `y` intervals, from an average of
    `s` before the failure. -/
def rebound (alpha c y s : ℚ) : ℚ :=
  alpha * c + (1 - alpha) ^ 2 * s + alpha * (c - (1 - alpha) * s) * y + 1 / 2 * (alpha * (c + alpha * s)) * y ^ 2

theorem rebound_mono (alpha c y : ℚ) {t : ℚ} (h : s ≤ t) : rebound alpha c y s ≤ rebound alpha c y t := by
  have hcoef : 0 ≤ (1 - alpha - alpha * y / 2) ^ 2 + (alpha * y / 2) ^ 2 := by positivity
  have hdiff : rebound alpha c y t - rebound alpha c y s =
      ((1 - alpha - alpha * y / 2) ^ 2 + (alpha * y / 2) ^ 2) * (t - s) := by
    unfold rebound
    ring
  have := mul_nonneg hcoef (sub_nonneg.mpr h)
  linarith

theorem rebound_eq_projected {dt : ℚ} (hdt : dt ≠ 0) (alpha c h s : ℚ) :
    rebound alpha c (h / dt) s =
      alpha * c + (1 - alpha) ^ 2 * s + alpha * (c - (1 - alpha) * s) / dt * h +
        1 / 2 * (alpha * (c + alpha * s) / dt ^ 2) * h * h := by
  unfold rebound
  field_simp

theorem rebound_top (alpha c y : ℚ) :
    rebound alpha c y c =
      (alpha + (1 - alpha) ^ 2) * c + alpha ^ 2 * c * y + 1 / 2 * (alpha * (1 + alpha) * c) * y ^ 2 := by
  unfold rebound
  ring

/-- At samples `dt` seconds apart, success, failure and success at the level `c` pass each of
    the three tests of a projected fault: acceleration, floor and hard drop. -/
def Trips (alpha accThreshold hardDrop horizon c dt : ℚ) : Prop :=
  accThreshold < alpha * (1 + alpha) * c / dt ^ 2 ∧ hardDrop * (3 / 10) ≤ (alpha + (1 - alpha) ^ 2) * c ∧
    hardDrop ≤ (alpha + (1 - alpha) ^ 2) * c + alpha ^ 2 * c * (horizon / dt) +
      1 / 2 * (alpha * (1 + alpha) * c) * (horizon / dt) ^ 2

instance (alpha accThreshold hardDrop horizon c dt : ℚ) : Decidable (Trips alpha accThreshold hardDrop horizon c dt) :=
  inferInstanceAs (Decidable (_ ∧ _))

namespace KinematicTracker

def Trips (k : KinematicTracker) (c dt : ℚ) : Prop :=
  Forecaster.Trips k.ewma.alpha k.cfg.accThreshold k.cfg.hardDrop (seconds k.cfg.horizon) c dt

/-- After a success the velocity is at least what the next success would have; after a
    failure it is what the fall from some average `s` made. -/
structure Even (c dt : ℚ) (k : KinematicTracker) : Prop extends Tracks c k where
  last : k.havePrev = true → k.ewma.alpha * (c - k.ewma.value) ≤ k.prevVel * dt ∨
    ∃ s, 0 ≤ s ∧ s ≤ c ∧ k.ewma.value = (1 - k.ewma.alpha) * s ∧ k.prevVel * dt = -(k.ewma.alpha * s)

variable {c dt : ℚ} {k : KinematicTracker}

theorem Tracks.calm_of_slowing (h : Tracks c k) (h0 : 0 ≤ c) (hdt : k.elapsed now = dt) (hpos : 0 < dt)
    (hslow : k.ewma.alpha * (c - k.ewma.value) ≤ k.prevVel * dt) : (k.observe c now).1.fault = false := by
  rw [← Bool.not_eq_true, h.fault_iff h0 (le_refl c)]
  rintro ⟨⟨hp, -, hacc⟩, -⟩
  have hacc : k.cfg.accThreshold < (k.derivatives (k.ring.push c) (k.average c) now).2 := hacc
  rw [h.derivatives_eq hp, hdt, h.average_next hp] at hacc
  have hvel : (k.ewma.alpha * c + (1 - k.ewma.alpha) * k.ewma.value - k.ewma.value) / dt ≤ k.prevVel := by
    rw [div_le_iff₀ hpos]
    linarith
  have hnonpos := div_nonpos_of_nonpos_of_nonneg (sub_nonpos.mpr hvel) (le_of_lt hpos)
  exact absurd (lt_trans h.threshold hacc) (not_lt.mpr hnonpos)

/-- The first success after a failure, in terms of the average `s` before the failure. -/
theorem Tracks.observe_rebound (h : Tracks c k) (hp : k.havePrev = true) (hdt : k.elapsed now = dt) (hpos : 0 < dt)
    (hs : k.ewma.value = (1 - k.ewma.alpha) * s) (hv : k.prevVel * dt = -(k.ewma.alpha * s)) :
    k.average c = k.ewma.alpha * c + (1 - k.ewma.alpha) ^ 2 * s ∧
      (k.observe c now).1.velocity = k.ewma.alpha * (c - (1 - k.ewma.alpha) * s) / dt ∧
      (k.observe c now).1.acceleration = k.ewma.alpha * (c + k.ewma.alpha * s) / dt ^ 2 := by
  have hvel : k.prevVel = -(k.ewma.alpha * s) / dt := by
    rw [eq_div_iff (ne_of_gt hpos)]
    exact hv
  refine ⟨?_, ?_, ?_⟩
  · rw [h.average_next hp, hs]
    ring
  · show (k.derivatives (k.ring.push c) (k.average c) now).1 = _
    rw [h.derivatives_eq hp, hdt, h.average_next hp, hs]
    ring
  · show (k.derivatives (k.ring.push c) (k.average c) now).2 = _
    rw [h.derivatives_eq hp, hdt, h.average_next hp, hs, hvel]
    field_simp
    ring

theorem Tracks.trips_of_rebound (h : Tracks c k) (h0 : 0 ≤ c) (hp : k.havePrev = true) (hdt : k.elapsed now = dt)
    (hpos : 0 < dt) (hsc : s ≤ c) (hs : k.ewma.value = (1 - k.ewma.alpha) * s)
    (hv : k.prevVel * dt = -(k.ewma.alpha * s)) (hf : (k.observe c now).1.fault = true) : k.Trips c dt := by
  obtain ⟨havg, hvel, hacc⟩ := h.observe_rebound hp hdt hpos hs hv
  obtain ⟨⟨-, -, hthr⟩, hdrop, hfloor⟩ := (h.fault_iff h0 (le_refl c) now).mp hf
  have ha := h.alpha_pos
  rw [hacc] at hthr
  rw [havg] at hfloor
  rw [havg, hvel, hacc] at hdrop
  have hsq : (1 - k.ewma.alpha) ^ 2 * s ≤ (1 - k.ewma.alpha) ^ 2 * c := mul_le_mul_of_nonneg_left hsc (sq_nonneg _)
  refine ⟨lt_of_lt_of_le hthr ?_, by linarith, ?_⟩
  · refine div_le_div_of_nonneg_right ?_ (sq_nonneg dt)
    linarith [mul_le_mul_of_nonneg_left hsc (le_of_lt (mul_pos ha ha))]
  · rw [← rebound_eq_projected (ne_of_gt hpos)] at hdrop
    rw [← rebound_top]
    exact le_trans hdrop (rebound_mono _ _ _ hsc)

theorem Tracks.rebound_faults (h : Tracks c k) (h0 : 0 ≤ c) (hp : k.havePrev = true) (hdt : k.elapsed now = dt)
    (hpos : 0 < dt) (hs : k.ewma.value = (1 - k.ewma.alpha) * c) (hv : k.prevVel * dt = -(k.ewma.alpha * c))
    (ht : k.Trips c dt) : (k.observe c now).1.fault = true := by
  obtain ⟨havg, hvel, hacc⟩ := h.observe_rebound hp hdt hpos hs hv
  obtain ⟨hthr, hfloor, hdrop⟩ := ht
  have ha := h.alpha_pos
  have hc : 0 < c := by
    rcases lt_or_eq_of_le h0 with hlt | rfl
    · exact hlt
    · rw [mul_zero, zero_div] at hthr
      exact absurd (lt_trans h.threshold hthr) (lt_irrefl 0)
  rw [h.fault_iff h0 (le_refl c)]
  refine ⟨⟨hp, ?_, ?_⟩, ?_, ?_⟩
  · rw [hvel]
    have hnum : k.ewma.alpha * (c - (1 - k.ewma.alpha) * c) = k.ewma.alpha ^ 2 * c := by ring
    rw [hnum]
    exact div_pos (mul_pos (pow_pos ha 2) hc) hpos
  · rw [hacc]
    have hnum : k.ewma.alpha * (c + k.ewma.alpha * c) = k.ewma.alpha * (1 + k.ewma.alpha) * c := by ring
    rw [hnum]
    exact hthr
  · rw [havg, hvel, hacc, ← rebound_eq_projected (ne_of_gt hpos), rebound_top]
    exact hdrop
  · rw [havg]
    linarith

theorem Even.success (h : Even c dt k) (h0 : 0 ≤ c) (hdt : k.havePrev = true → k.elapsed now = dt) (hpos : 0 < dt)
    (ht : ¬ k.Trips c dt) : (k.observe c now).1.fault = false := by
  cases hp : k.havePrev with
  | false =>
    exact h.calm_of_average_le h0 (le_refl c) (fun hp' => absurd (hp.symm.trans hp') Bool.false_ne_true) now
  | true =>
    rcases h.last hp with hslow | ⟨s, -, hsc, hs, hv⟩
    · exact h.calm_of_slowing h0 (hdt hp) hpos hslow
    · rw [← Bool.not_eq_true]
      exact fun hf => ht (h.trips_of_rebound h0 hp (hdt hp) hpos hsc hs hv hf)

theorem observe_trips_iff (k : KinematicTracker) (x : ℚ) (now : Time) (c dt : ℚ) :
    (k.observe x now).2.Trips c dt ↔ k.Trips c dt := by
  show Forecaster.Trips (k.ewma.update x).alpha _ _ _ _ _ ↔ _
  rw [Ewma.update_alpha]
  exact Iff.rfl

theorem Even.observe_success (h : Even c dt k) (h0 : 0 ≤ c) (hdt : k.havePrev = true → k.elapsed now = dt)
    (hpos : 0 < dt) : Even c dt (k.observe c now).2 := by
  refine ⟨h.observe h0 (le_refl c) now, fun _ => .inl ?_⟩
  show (k.ewma.update c).alpha * (c - k.average c) ≤ (k.derivatives (k.ring.push c) (k.average c) now).1 * dt
  rw [Ewma.update_alpha]
  cases hp : k.havePrev with
  | false =>
    rw [h.average_first hp, derivatives, if_neg (by simp [hp])]
    simp
  | true =>
    rw [h.derivatives_eq hp, hdt hp, h.average_next hp, div_mul_cancel₀ _ (ne_of_gt hpos)]
    have hgap := mul_nonneg (le_of_lt h.alpha_pos) (sub_nonneg.mpr h.le)
    linarith [mul_nonneg (le_of_lt h.alpha_pos) hgap]

theorem Tracks.observe_fall (h : Tracks c k) (hp : k.havePrev = true) (hdt : k.elapsed now = dt) (hpos : 0 < dt) :
    (k.observe 0 now).2.ewma.value = (1 - k.ewma.alpha) * k.ewma.value ∧
      (k.observe 0 now).2.prevVel * dt = -(k.ewma.alpha * k.ewma.value) := by
  constructor
  · show k.average 0 = _
    rw [h.average_next hp]
    ring
  · show (k.derivatives (k.ring.push 0) (k.average 0) now).1 * dt = _
    rw [h.derivatives_eq hp, hdt, h.average_next hp, div_mul_cancel₀ _ (ne_of_gt hpos)]
    ring

theorem Even.observe_failure (h : Even c dt k) (h0 : 0 ≤ c) (hdt : k.havePrev = true → k.elapsed now = dt)
    (hpos : 0 < dt) : Even c dt (k.observe 0 now).2 := by
  refine ⟨h.observe (le_refl 0) h0 now, fun _ => .inr ?_⟩
  have halpha : (k.observe 0 now).2.ewma.alpha = k.ewma.alpha := Ewma.update_alpha k.ewma 0
  rw [halpha]
  cases hp : k.havePrev with
  | false =>
    refine ⟨0, le_refl 0, h0, ?_, ?_⟩
    · show k.average 0 = _
      rw [h.average_first hp]
      ring
    · show (k.derivatives (k.ring.push 0) (k.average 0) now).1 * dt = _
      rw [derivatives, if_neg (by simp [hp])]
      simp
  | true => exact ⟨k.ewma.value, h.nonneg, h.le, h.observe_fall hp (hdt hp) hpos⟩

/-! ## Runs of samples -/

def OnBeat (c : ℚ) (d : Duration) (k : KinematicTracker) (x : ℚ × Time) : Prop :=
  (x.1 = c ∨ x.1 = 0) ∧ (k.havePrev = true → x.2 = k.lastAt + d)

theorem elapsed_of_beat {d : Duration} (hd : 0 < d) (hfits : d < 2 ^ 63) (h : now = k.lastAt + d) :
    k.elapsed now = seconds d := by
  have hsub : timeSub now k.lastAt = d := by
    rw [h]
    exact timeSub_add _ (le_trans (by norm_num) (le_of_lt hd)) hfits
  simp only [elapsed, hsub]
  rw [if_neg (not_le.mpr (seconds_pos hd))]

theorem even_run_calm {d : Duration} (hd : 0 < d) (hfits : d < 2 ^ 63) (h0 : 0 ≤ c) (hk : Even c (seconds d) k)
    (ht : ¬ k.Trips c (seconds d)) (hxs : along sample (OnBeat c d) k xs) :
    ∀ o ∈ (exec sample k xs).1, o.fault = false := by
  have hpos := seconds_pos hd
  refine exec_answers (I := fun k => Even c (seconds d) k ∧ ¬ k.Trips c (seconds d)) ?_ ⟨hk, ht⟩ hxs
  rintro k ⟨x, now⟩ ⟨hk, ht⟩ ⟨hx, hbeat⟩
  have hdt : k.havePrev = true → k.elapsed now = seconds d := fun hp => elapsed_of_beat hd hfits (hbeat hp)
  have ht' : ¬ (k.observe x now).2.Trips c (seconds d) := fun h => ht ((k.observe_trips_iff x now c _).mp h)
  rcases hx with hx | hx
  · cases hx
    exact ⟨hk.success h0 hdt hpos ht, hk.observe_success h0 hdt hpos, ht'⟩
  · cases hx
    exact ⟨hk.calm_of_average_le (le_refl 0) h0 hk.average_zero_le now, hk.observe_failure h0 hdt hpos, ht'⟩

theorem level_range (h0 : 0 ≤ c) (hx : x = c ∨ x = 0) : 0 ≤ x ∧ x ≤ c := by
  rcases hx with rfl | rfl
  · exact ⟨h0, le_refl _⟩
  · exact ⟨le_refl _, h0⟩

theorem low_run_calm (h0 : 0 ≤ c) (hk : Tracks c k) (hlow : c < k.cfg.hardDrop * (3 / 10))
    (hxs : ∀ x ∈ xs, x.1 = c ∨ x.1 = 0) : ∀ o ∈ (exec sample k xs).1, o.fault = false := by
  refine exec_answers (P := fun _ x => x.1 = c ∨ x.1 = 0)
    (I := fun k => Tracks c k ∧ c < k.cfg.hardDrop * (3 / 10)) ?_ ⟨hk, hlow⟩ (along_of_forall (fun _ => hxs) k)
  rintro k ⟨x, now⟩ ⟨hk, hlow⟩ hx
  obtain ⟨hx0, hxc⟩ := level_range h0 hx
  exact ⟨hk.calm_of_low hlow hx0 hxc now, hk.observe hx0 hxc now, hlow⟩

theorem failed_run_calm (h0 : 0 ≤ c) (hk : Tracks c k) (hxs : ∀ x ∈ xs, x.1 = 0) :
    ∀ o ∈ (exec sample k xs).1, o.fault = false := by
  refine exec_answers (P := fun _ x => x.1 = 0) (I := Tracks c) ?_ hk (along_of_forall (fun _ => hxs) k)
  rintro k ⟨x, now⟩ hk hx
  cases hx
  exact ⟨hk.calm_of_average_le (le_refl 0) h0 hk.average_zero_le now, hk.observe (le_refl 0) h0 now⟩

/-- Once failed, failed: the average stays at `c` and then only falls. -/
theorem unrecovered_run_calm (h0 : 0 ≤ c) (hk : Tracks c k) (htop : k.havePrev = true → k.ewma.value = c)
    (hxs : ∀ x ∈ xs, x.1 = c ∨ x.1 = 0) (hstay : xs.Pairwise fun a b => a.1 = 0 → b.1 = 0) :
    ∀ o ∈ (exec sample k xs).1, o.fault = false := by
  induction xs generalizing k with
  | nil => simp
  | cons x xs ih =>
    obtain ⟨hhead, htail⟩ := List.pairwise_cons.mp hstay
    by_cases hx : x.1 = 0
    · refine failed_run_calm h0 hk ?_
      intro y hy
      rcases List.mem_cons.mp hy with rfl | hy
      · exact hx
      · exact hhead y hy hx
    · have hc : x.1 = c := (hxs x (by simp)).resolve_right hx
      have havg := hk.average_top htop
      intro o ho
      rcases List.mem_cons.mp ho with rfl | ho
      · show (k.observe x.1 x.2).1.fault = false
        rw [hc]
        exact hk.calm_of_average_le h0 (le_refl c) (fun hp => le_of_eq (havg.trans (htop hp).symm)) x.2
      · refine ih (k := (k.sample x).2) ?_ ?_ (fun y hy => hxs y (by simp [hy])) htail o ho
        · show Tracks c (k.observe x.1 x.2).2
          rw [hc]
          exact hk.observe h0 (le_refl c) x.2
        · intro _
          show k.average x.1 = c
          rw [hc]
          exact havg

/-- Success, failure, success: the pattern that faults if any does. -/
theorem gap_run_faults {d : Duration} (hd : 0 < d) (hfits : d < 2 ^ 63) (h0 : 0 ≤ c) (hk : Tracks c k)
    (hfresh : k.havePrev = false) (ht : k.Trips c (seconds d)) :
    ∃ o ∈ (exec sample k [(c, 0), (0, d), (c, d + d)]).1, o.fault = true := by
  have hpos := seconds_pos hd
  have hk₁ := hk.observe h0 (le_refl c) 0
  have hval : (k.observe c 0).2.ewma.value = c := hk.average_first hfresh c
  have hdt₁ : (k.observe c 0).2.elapsed d = seconds d := elapsed_of_beat hd hfits (zero_add d).symm
  obtain ⟨hs, hv⟩ := hk₁.observe_fall rfl hdt₁ hpos
  have hk₂ := hk₁.observe (le_refl 0) h0 d
  have hdt₂ : ((k.observe c 0).2.observe 0 d).2.elapsed (d + d) = seconds d := elapsed_of_beat hd hfits rfl
  have ha₁ : (k.observe c 0).2.ewma.alpha = ((k.observe c 0).2.observe 0 d).2.ewma.alpha := (Ewma.update_alpha _ _).symm
  rw [hval, ha₁] at hs hv
  have ht₂ : ((k.observe c 0).2.observe 0 d).2.Trips c (seconds d) :=
    (observe_trips_iff _ _ _ _ _).mpr ((observe_trips_iff _ _ _ _ _).mpr ht)
  exact ⟨_, .tail _ (.tail _ (.head _)), hk₂.rebound_faults h0 rfl hdt₂ hpos hs hv ht₂⟩

end KinematicTracker

end EliteTelemetry.Forecaster
