/-
  EliteTelemetry.Forecaster.ScrapeGap — failed scrapes at a constant latency (`Runner.tick`
  and `applySample` of `pkg/forecaster/runner.go`).

  A failed scrape is a sample of zero. With no other signal a tick is an observation of the
  engine (`tick_atLevel`), and a run of ticks a run of samples (`noFault_iff`), so a gap in
  the scrapes of a constant latency below the hard drop can fault once they succeed again.
  `scrape_failures_fault_iff` says when: at ticks a fixed time apart, exactly where success,
  failure, success does (`Trips`); and it gives two kinds of runs that never do, whatever
  their times.
-/

import EliteTelemetry.Forecaster.Agreement
import EliteTelemetry.Forecaster.Rebound

namespace EliteTelemetry.Forecaster

open EliteTelemetry.Lib.GoNumbers EliteTelemetry.Lib.Machine

/-! ## Runs of ticks -/

/-- The scrape gives `c` or fails, and there is no other signal. -/
structure AtLevel (c : ℚ) (t : Tick) : Prop where
  net : t.net = some c ∨ t.net = none
  llc : t.llcMissRate = none
  psi : t.psiAvg10 = none
  kernel : t.lambda.pktCount = 0
  conn : t.conn = none

theorem fuseScalar_network (x : ℚ) (w : FuseWeights) : fuseScalar ⟨x, none, none⟩ w = x := by
  simp only [fuseScalar, Option.map_none, Option.getD_none, add_zero]
  split
  · rfl
  · rename_i hw
    exact mul_div_cancel_left₀ x (fun h => hw (le_of_eq h))

variable {ts : List Tick} {t : Tick}

namespace Runner

theorem signals_atLevel {c : ℚ} (h : AtLevel c t) (r : Runner) : r.signals t = ⟨t.net.getD 0, none, none⟩ := by
  simp [signals, h.llc, h.psi]

theorem preFault_atLevel {c : ℚ} (h : AtLevel c t) (r : Runner) : r.preFault t = false := by
  have hrate : r.kernelRate t = 0 := by simp [kernelRate, h.kernel]
  have hobs : ∀ te, r.observeTraffic t te = none := fun te => by simp [observeTraffic, hrate, h.conn]
  unfold preFault
  cases hte : r.traffic with
  | none => rfl
  | some te => simp [hobs]

theorem measure_engine (cv : Conv) (r : Runner) (t : Tick) : (r.measure cv t).2.engine = (r.latency t).2 := by
  simp only [measure]
  split <;> rfl

theorem actOnFault_engine (r : Runner) (t : Tick) (p : Published) : (r.actOnFault t p).2.engine = r.engine := by
  simp only [actOnFault, apply_ite Runner.engine, ite_self]

theorem tick_engine (cv : Conv) (r : Runner) (t : Tick) : (r.tick cv t).2.engine = (r.latency t).2 := by
  rw [← measure_engine cv]
  exact actOnFault_engine _ _ _

/-- A tick with no other signal is an observation of what was scraped, or of zero. -/
theorem tick_atLevel (cv : Conv) {c : ℚ} (h : AtLevel c t) (r : Runner) :
    (r.tick cv t).1.snap.fault = (r.engine.observe (t.net.getD 0) t.now).1.fault ∧
      (r.tick cv t).2.engine = (r.engine.observe (t.net.getD 0) t.now).2 := by
  have hlat : r.latency t = engineObserve r.engine (t.net.getD 0) t.now := by
    unfold latency
    rw [signals_atLevel h, fuseScalar_network]
  constructor
  · show (r.measure cv t).1.fault = _
    rw [measure_fault, preFault_atLevel h, hlat, Bool.or_false]
    rfl
  · rw [tick_engine, hlat]
    rfl

end Runner

def NoFault (ps : List Published) : Prop := ∀ p ∈ ps, p.snap.fault = false

def Tick.sample (t : Tick) : ℚ × Time := (t.net.getD 0, t.now)

theorem noFault_iff (cv : Conv) {c : ℚ} (hts : ∀ t ∈ ts, AtLevel c t) (r : Runner) :
    NoFault (exec (Runner.tick cv) r ts).1 ↔
      ∀ o ∈ (exec KinematicTracker.sample r.engine (ts.map Tick.sample)).1, o.fault = false := by
  have hsim : (exec (Runner.tick cv) r ts).1.map (·.snap.fault) =
      (exec KinematicTracker.sample r.engine (ts.map Tick.sample)).1.map (·.fault) := by
    refine exec_simulates (R := fun r k => r.engine = k) ?_ rfl
    rintro r _ rfl t ht
    exact Runner.tick_atLevel cv (hts t ht) r
  have hmap : ∀ {α : Type} (l : List α) (f : α → Bool), (∀ o ∈ l, f o = false) ↔ ∀ b ∈ l.map f, b = false := by simp
  unfold NoFault
  rw [hmap _ fun p : Published => p.snap.fault, hsim, ← hmap]

theorem sample_cases {c : ℚ} (h : AtLevel c t) : t.sample.1 = c ∨ t.sample.1 = 0 := by
  rcases h.net with hn | hn
  · exact .inl (by simp [Tick.sample, hn])
  · exact .inr (by simp [Tick.sample, hn])

theorem along_onBeat {c : ℚ} {d : Duration} (hts : ∀ t ∈ ts, AtLevel c t)
    (heven : ts.IsChain fun a b => b.now = a.now + d) {k : KinematicTracker}
    (hk : k.havePrev = true → ∀ t ∈ ts.head?, t.now = k.lastAt + d) :
    along KinematicTracker.sample (KinematicTracker.OnBeat c d) k (ts.map Tick.sample) := by
  induction ts generalizing k with
  | nil => trivial
  | cons t ts ih =>
    refine ⟨⟨sample_cases (hts t (by simp)), fun hp => hk hp t rfl⟩, ?_⟩
    refine ih (fun u hu => hts u (by simp [hu])) heven.tail ?_
    intro _ u hu
    cases ts with
    | nil => cases hu
    | cons v ts =>
      cases hu
      exact (List.isChain_cons_cons.mp heven).1

/-! ## From a new runner -/

def Config.Trips (cfg : Config) (c dt : ℚ) : Prop :=
  Forecaster.Trips (newEwma cfg.alpha).alpha cfg.accThreshold cfg.hardDropSeconds (seconds cfg.horizon) c dt

instance (cfg : Config) (c dt : ℚ) : Decidable (cfg.Trips c dt) := inferInstanceAs (Decidable (Forecaster.Trips ..))

theorem newRunner_engine (cfg : Config) (shedder ring : Bool) :
    (newRunner cfg shedder ring).engine.ewma = newEwma cfg.filled.alpha ∧
      (newRunner cfg shedder ring).engine.cfg.accThreshold = cfg.filled.accThreshold ∧
      (newRunner cfg shedder ring).engine.cfg.hardDrop = cfg.filled.hardDropSeconds ∧
      (newRunner cfg shedder ring).engine.cfg.horizon = cfg.filled.horizon := by
  have halpha : cfg.filled.alpha ≠ 0 := ne_of_gt (orPositive_pos (by norm_num))
  have hthr : cfg.filled.accThreshold ≠ 0 := ne_of_gt (orPositive_pos (by norm_num))
  have hdrop : cfg.filled.hardDropSeconds ≠ 0 := ne_of_gt (orPositive_pos (by norm_num))
  have hhor : cfg.filled.horizon ≠ 0 := ne_of_gt (orPositive_pos (by decide))
  refine ⟨?_, orDefault_of_ne hthr, orDefault_of_ne hdrop, orDefault_of_ne hhor⟩
  show newEwma (orDefault cfg.filled.alpha (3 / 10)) = _
  rw [orDefault_of_ne halpha]

theorem newRunner_tracks (cfg : Config) (shedder ring : Bool) {c : ℚ} (h0 : 0 ≤ c)
    (hc : c < cfg.filled.hardDropSeconds) : (newRunner cfg shedder ring).engine.Tracks c := by
  obtain ⟨hewma, hthr, hdrop, -⟩ := newRunner_engine cfg shedder ring
  obtain ⟨hpos, hle⟩ := newEwma_alpha_range cfg.filled.alpha
  refine ⟨rfl, hewma ▸ hpos, hewma ▸ hle, ?_, rfl, fun h => absurd h Bool.false_ne_true, le_refl 0, h0, hdrop ▸ hc⟩
  rw [hthr]
  exact orPositive_pos (by norm_num)

theorem newRunner_trips_iff (cfg : Config) (shedder ring : Bool) (c dt : ℚ) :
    (newRunner cfg shedder ring).engine.Trips c dt ↔ cfg.filled.Trips c dt := by
  obtain ⟨hewma, hthr, hdrop, hhor⟩ := newRunner_engine cfg shedder ring
  unfold KinematicTracker.Trips Config.Trips
  rw [hewma, hthr, hdrop, hhor]

def scrapeTick (net : Option ℚ) (now : Time) : Tick :=
  { now := now, net := net, llcMissRate := none, psiAvg10 := none, stats := ⟨0, 0, 0⟩, lambda := noEvent, conn := none,
    wallNs := 0, pin := .opens, shedOk := true, restoreOk := true }

theorem scrapeTick_atLevel {c : ℚ} {net : Option ℚ} (h : net = some c ∨ net = none) (now : Time) :
    AtLevel c (scrapeTick net now) := ⟨h, rfl, rfl, rfl, rfl⟩

theorem samples_stay_zero {c : ℚ} (hts : ∀ t ∈ ts, AtLevel c t)
    (hstay : ts.Pairwise fun a b => a.net = none → b.net = none) :
    (ts.map Tick.sample).Pairwise fun a b => a.1 = 0 → b.1 = 0 := by
  rw [List.pairwise_map]
  refine hstay.imp_of_mem ?_
  intro a b ha hb hab hzero
  rcases (hts a ha).net with hn | hn
  · have hc : c = 0 := by
      rw [← hzero]
      simp [Tick.sample, hn]
    exact (sample_cases (hts b hb)).elim (fun h => h.trans hc) id
  · simp [Tick.sample, hab hn]

section NewRunner

variable (cv : Conv) (cfg : Config) (shedder ring : Bool) {c : ℚ} (h0 : 0 ≤ c) (hc : c < cfg.filled.hardDropSeconds)

include h0 hc

theorem even_scrapes_calm {d : Duration} (hd : 0 < d) (hfits : d < 2 ^ 63) (htrips : ¬ cfg.filled.Trips c (seconds d))
    (hts : ∀ t ∈ ts, AtLevel c t) (heven : ts.IsChain fun a b => b.now = a.now + d) :
    NoFault (exec (Runner.tick cv) (newRunner cfg shedder ring) ts).1 := by
  have hfresh : ¬ (newRunner cfg shedder ring).engine.havePrev = true := Bool.false_ne_true
  have heven' : (newRunner cfg shedder ring).engine.Even c (seconds d) :=
    ⟨newRunner_tracks cfg shedder ring h0 hc, fun h => absurd h hfresh⟩
  rw [noFault_iff cv hts]
  exact KinematicTracker.even_run_calm hd hfits h0 heven' (fun h => htrips ((newRunner_trips_iff ..).mp h))
    (along_onBeat hts heven fun h => absurd h hfresh)

theorem scrape_gap_faults {d : Duration} (hd : 0 < d) (hfits : d < 2 ^ 63) (htrips : cfg.filled.Trips c (seconds d)) :
    ¬ NoFault (exec (Runner.tick cv) (newRunner cfg shedder ring)
      [scrapeTick (some c) 0, scrapeTick none d, scrapeTick (some c) (d + d)]).1 := by
  have hts : ∀ t ∈ [scrapeTick (some c) 0, scrapeTick none d, scrapeTick (some c) (d + d)], AtLevel c t := by
    simp [scrapeTick_atLevel]
  obtain ⟨o, ho, hf⟩ := KinematicTracker.gap_run_faults hd hfits h0 (newRunner_tracks cfg shedder ring h0 hc) rfl
    ((newRunner_trips_iff cfg shedder ring c _).mpr htrips)
  rw [noFault_iff cv hts]
  intro hcalm
  exact absurd (hcalm o ho) (by simp [hf])

theorem scrapes_calm_at_any_times (hts : ∀ t ∈ ts, AtLevel c t)
    (hsafe : c < cfg.filled.hardDropSeconds * (3 / 10) ∨ ts.Pairwise fun a b => a.net = none → b.net = none) :
    NoFault (exec (Runner.tick cv) (newRunner cfg shedder ring) ts).1 := by
  have htracks := newRunner_tracks cfg shedder ring h0 hc
  have hdrop := (newRunner_engine cfg shedder ring).2.2.1
  have hsamples : ∀ x ∈ ts.map Tick.sample, x.1 = c ∨ x.1 = 0 := by
    intro x hx
    obtain ⟨t, ht, rfl⟩ := List.mem_map.mp hx
    exact sample_cases (hts t ht)
  rw [noFault_iff cv hts]
  rcases hsafe with hlow | hstay
  · exact KinematicTracker.low_run_calm h0 htracks (hdrop ▸ hlow) hsamples
  · exact KinematicTracker.unrecovered_run_calm h0 htracks (fun h => absurd h Bool.false_ne_true) hsamples
      (samples_stay_zero hts hstay)

end NewRunner

/-- At a constant latency `c` below the hard drop, with no other signal. At ticks `d` apart
    no pattern of failures ever faults exactly where success, failure, success does not. At
    any times, a level below the floor never faults, nor does a run that stays failed. -/
theorem scrape_failures_fault_iff (cv : Conv) (cfg : Config) (shedder ring : Bool) {c : ℚ} (h0 : 0 ≤ c)
    (hc : c < cfg.filled.hardDropSeconds) :
    (∀ d : Duration, 0 < d → d < 2 ^ 63 →
      ((∀ ts, (∀ t ∈ ts, AtLevel c t) → (ts.IsChain fun a b => b.now = a.now + d) →
          NoFault (exec (Runner.tick cv) (newRunner cfg shedder ring) ts).1) ↔
        ¬ cfg.filled.Trips c (seconds d))) ∧
      ∀ ts, (∀ t ∈ ts, AtLevel c t) →
        (c < cfg.filled.hardDropSeconds * (3 / 10) ∨ ts.Pairwise fun a b => a.net = none → b.net = none) →
          NoFault (exec (Runner.tick cv) (newRunner cfg shedder ring) ts).1 := by
  constructor
  · intro d hd hfits
    constructor
    · intro hcalm htrips
      refine scrape_gap_faults cv cfg shedder ring h0 hc hd hfits htrips (hcalm _ ?_ ?_)
      · simp [scrapeTick_atLevel]
      · simp [scrapeTick]
    · intro htrips ts hts heven
      exact even_scrapes_calm cv cfg shedder ring h0 hc hd hfits htrips hts heven
  · intro ts hts hsafe
    exact scrapes_calm_at_any_times cv cfg shedder ring h0 hc hts hsafe

def scrapeConfig : Config := { trafficConfig with trafficEnabled := false, policyMapPin := "" }

/-- 40 ms scraped once a minute, and 20 ms at uneven times. -/
theorem scrape_failures_calm_at_slow_ticks :
    NoFault (exec (Runner.tick saturating) (newRunner scrapeConfig false false)
        [scrapeTick (some (1 / 25)) 0, scrapeTick none (60 * second), scrapeTick (some (1 / 25)) (120 * second)]).1 ∧
      NoFault (exec (Runner.tick saturating) (newRunner scrapeConfig false false)
        [scrapeTick (some (1 / 50)) 0, scrapeTick none (3 * second), scrapeTick (some (1 / 50)) (4 * second)]).1 := by
  constructor
  · refine ((scrape_failures_fault_iff saturating scrapeConfig false false (c := 1 / 25) (by norm_num)
      (by decide +kernel)).1 (60 * second) (by decide) (by decide)).mpr (by decide +kernel) _ ?_ ?_
    · simp [scrapeTick_atLevel]
    · simp [scrapeTick, second]
  · refine (scrape_failures_fault_iff saturating scrapeConfig false false (c := 1 / 50) (by norm_num)
      (by decide +kernel)).2 _ ?_ (.inl (by decide +kernel))
    simp [scrapeTick_atLevel]

/-- 40 ms of 100 ms, one scrape of three failed. -/
theorem one_failed_scrape_faults :
    (∀ t ∈ [scrapeTick (some (1 / 25)) 0, scrapeTick none second, scrapeTick (some (1 / 25)) (2 * second)],
        AtLevel (1 / 25) t) ∧
      (1 / 25 : ℚ) < scrapeConfig.filled.hardDropSeconds ∧
      ¬ NoFault (exec (Runner.tick saturating) (newRunner scrapeConfig false false)
        [scrapeTick (some (1 / 25)) 0, scrapeTick none second, scrapeTick (some (1 / 25)) (2 * second)]).1 := by
  refine ⟨by simp [scrapeTick_atLevel], by decide +kernel, ?_⟩
  unfold NoFault
  decide +kernel

end EliteTelemetry.Forecaster
