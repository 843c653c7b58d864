/-
  EliteTelemetry.Forecaster.ShedRate — the shed rate the kernel is given, as a function of
  the traffic overload.

  The overload is raised to a power, cut to parts per million, and cut by a tenth when the
  kernel drops more than was asked for. Each of these is monotone. The map writer is not: a
  rate that has come out as zero under a fault is written as everything. So a larger overload
  sheds no less, except where the smaller one's rate vanishes and the larger one's neither
  vanishes nor is full (`shed_rate_mono_iff`).
-/

import EliteTelemetry.Forecaster.Runner

namespace EliteTelemetry.Forecaster

open EliteTelemetry.Lib.GoNumbers
open EliteTelemetry.Xdp (XdpStat)

/-! ## The power and its parts per million -/

def shedExponent (cv : Conv) (gamma : ℚ) : ℕ := (cv.int (if gamma ≤ 0 then 2 else gamma) - 1).toNat + 1

theorem powLoop_eq (x : ℚ) (n : ℤ) : powLoop x n = x ^ ((n - 1).toNat + 1) := by
  unfold powLoop
  generalize (n - 1).toNat = k
  induction k with
  | zero => simp
  | succ k ih => rw [Function.iterate_succ_apply', ih, pow_succ _ (k + 1)]

theorem u32_floor (cv : Conv) {x : ℚ} (h0 : 0 ≤ x) (h1 : x < 2 ^ 32) : (cv.u32 x).toNat = ⌊x⌋.toNat := by
  have h := cv.u32_fits x (by linarith) h1
  rw [trunc_of_nonneg h0] at h
  omega

theorem shedPPM_toNat (cv : Conv) {o : ℚ} (ho : 0 < o) (gamma : ℚ) :
    (shedPPM cv o gamma).toNat = min 1000000 ⌊o ^ shedExponent cv gamma * 1000000⌋.toNat := by
  have hpow : powLoop o (cv.int (if gamma ≤ 0 then 2 else gamma)) = o ^ shedExponent cv gamma := powLoop_eq _ _
  have hpos : 0 ≤ o ^ shedExponent cv gamma * 1000000 := by positivity
  simp only [shedPPM, not_le.mpr ho, if_false, hpow, ppmScale]
  push_cast
  split
  · rename_i h
    have hfloor : (1000000 : ℤ) ≤ ⌊o ^ shedExponent cv gamma * 1000000⌋ :=
      Int.le_floor.mpr (by push_cast; linarith)
    rw [min_eq_left (by omega)]
    rfl
  · rename_i h
    have hfloor : ⌊o ^ shedExponent cv gamma * 1000000⌋ ≤ 1000000 := by
      have hle : ⌊o ^ shedExponent cv gamma * 1000000⌋ ≤ ⌊(1000000 : ℚ)⌋ := Int.floor_le_floor (by linarith)
      simpa using hle
    rw [u32_floor cv hpos (by linarith), min_eq_right (by omega)]

/-! ## The controller -/

/-- The kernel drops more than a fifth above `ppm` parts per million. -/
def Overshoots (stats : XdpStat) (ppm : ℕ) : Prop :=
  100 ≤ stats.pass + stats.drop ∧
    (ppm / 1000000 * (6 / 5) : ℚ) < stats.drop.toNat / (stats.pass + stats.drop).toNat

instance (stats : XdpStat) (ppm : ℕ) : Decidable (Overshoots stats ppm) := inferInstanceAs (Decidable (_ ∧ _))

theorem Overshoots.mono {stats : XdpStat} {p q : ℕ} (hpq : p ≤ q) (h : Overshoots stats q) : Overshoots stats p := by
  refine ⟨h.1, lt_of_le_of_lt ?_ h.2⟩
  have : (p : ℚ) ≤ q := by exact_mod_cast hpq
  linarith

theorem nine_tenths (cv : Conv) (t : UInt32) : (cv.u32 (t.toNat * (9 / 10))).toNat = t.toNat * 9 / 10 := by
  have hlt : (t.toNat : ℚ) < 2 ^ 32 := by exact_mod_cast t.toNat_lt
  have hnn : (0 : ℚ) ≤ t.toNat := by positivity
  have hfloor : ⌊(t.toNat * (9 / 10) : ℚ)⌋ = (t.toNat * 9 / 10 : ℕ) := by
    have := Rat.floor_natCast_div_natCast (t.toNat * 9) 10
    rw [show (t.toNat * (9 / 10) : ℚ) = ((t.toNat * 9 : ℕ) : ℚ) / (10 : ℕ) by push_cast; ring]
    exact_mod_cast this
  rw [u32_floor cv (by linarith) (by linarith), hfloor]
  rfl

theorem adjust_toNat (cv : Conv) (t : UInt32) (stats : XdpStat) :
    (adjust cv t stats).toNat = if Overshoots stats t.toNat then t.toNat * 9 / 10 else t.toNat := by
  by_cases h0 : t = 0
  · subst h0
    simp [adjust]
  have hscale : ((ppmScale : ℕ) : ℚ) = 1000000 := by norm_num [ppmScale]
  simp only [adjust, h0, if_false, hscale]
  by_cases hov : Overshoots stats t.toNat
  · -- nine tenths are never below the half that bounds them
    have hhalf : ¬ cv.u32 (t.toNat * (9 / 10)) < t / 2 := by
      rw [UInt32.lt_iff_toNat_lt, nine_tenths, UInt32.toNat_div]
      simp only [UInt32.reduceToNat]
      omega
    rw [if_pos hov, if_neg (UInt64.not_lt.mpr hov.1), if_pos hov.2, if_neg hhalf, nine_tenths]
  · rw [if_neg hov]
    by_cases htot : stats.pass + stats.drop < 100
    · rw [if_pos htot]
    · rw [if_neg htot, if_neg fun h => hov ⟨UInt64.not_lt.mp htot, h⟩]

/-! ## What is written -/

/-- The `shed_ppm` in the map after a tick that sees this latency and this traffic. -/
def writtenShedPpm (cv : Conv) (gamma : ℚ) (stats : XdpStat) (ifindex : UInt32) (lat : Snapshot)
    (traffic : TrafficSnapshot) : UInt32 :=
  (policyValue cv (overloaded cv gamma true stats lat traffic) ifindex).shedPpm

/-- The rate before the map writer, in parts per million: of the overload, after the controller. -/
def targetPpm (cv : Conv) (gamma e : ℚ) : ℕ := min 1000000 ⌊e ^ shedExponent cv gamma * 1000000⌋.toNat
def controlledPpm (stats : XdpStat) (t : ℕ) : ℕ := if Overshoots stats t then t * 9 / 10 else t

theorem controlledPpm_mono (stats : XdpStat) {t u : ℕ} (h : t ≤ u) : controlledPpm stats t ≤ controlledPpm stats u := by
  unfold controlledPpm
  by_cases hu : Overshoots stats u
  · rw [if_pos hu, if_pos (hu.mono h)]
    omega
  · rw [if_neg hu]
    split <;> omega

theorem targetPpm_mono (cv : Conv) (gamma : ℚ) {e f : ℚ} (he : 0 < e) (h : e ≤ f) :
    targetPpm cv gamma e ≤ targetPpm cv gamma f := by
  have hpow : e ^ shedExponent cv gamma ≤ f ^ shedExponent cv gamma := pow_le_pow_left₀ he.le h _
  have hfloor : ⌊e ^ shedExponent cv gamma * 1000000⌋ ≤ ⌊f ^ shedExponent cv gamma * 1000000⌋ :=
    Int.floor_le_floor (by linarith)
  unfold targetPpm
  omega

theorem fusedOverload_mono (lat : Snapshot) {o p : ℚ} (h : o ≤ p) : fusedOverload lat o ≤ fusedOverload lat p := by
  simp only [fusedOverload]
  split
  · generalize computeOverloadFraction _ _ = l
    have hmax : (if o < l then l else o) ≤ (if p < l then l else p) := by split_ifs <;> linarith
    split_ifs at hmax ⊢ <;> linarith
  · exact h

theorem fusedOverload_pos (lat : Snapshot) {o : ℚ} (h : 0 < o) : 0 < fusedOverload lat o := by
  simp only [fusedOverload]
  split
  · split_ifs <;> linarith
  · exact h

theorem overloaded_shedPpm (cv : Conv) (gamma : ℚ) (stats : XdpStat) (lat : Snapshot) (tr : TrafficSnapshot) :
    (overloaded cv gamma true stats lat tr).shedPpm.toNat =
      controlledPpm stats (shedPPM cv (fusedOverload lat tr.overload) gamma).toNat := by
  show Eq (UInt32.toNat (Snapshot.shedPpm (if true = true ∧ _ then _ else _))) _
  by_cases h : 0 < shedPPM cv (fusedOverload lat tr.overload) gamma
  · rw [if_pos ⟨rfl, h⟩]
    exact adjust_toNat _ _ _
  · rw [if_neg fun hx => h hx.2]
    have hzero : shedPPM cv (fusedOverload lat tr.overload) gamma = 0 := by
      rw [UInt32.lt_iff_toNat_lt] at h
      exact UInt32.toNat_inj.mp (Nat.eq_zero_of_not_pos h)
    show (shedPPM cv (fusedOverload lat tr.overload) gamma).toNat = _
    rw [hzero]
    simp [controlledPpm]

/-- Under a fault the map holds the controlled rate, or everything where that is zero. -/
theorem writtenShedPpm_toNat (cv : Conv) (gamma : ℚ) (stats : XdpStat) (ifindex : UInt32) (lat : Snapshot)
    {tr : TrafficSnapshot} (hpre : tr.preFault = true) (ho : 0 < tr.overload) :
    (writtenShedPpm cv gamma stats ifindex lat tr).toNat =
      if controlledPpm stats (targetPpm cv gamma (fusedOverload lat tr.overload)) = 0 then 1000000
      else controlledPpm stats (targetPpm cv gamma (fusedOverload lat tr.overload)) := by
  have hfault : (overloaded cv gamma true stats lat tr).fault = true := by simp [overloaded_fault, hpre]
  have hshed := overloaded_shedPpm cv gamma stats lat tr
  rw [shedPPM_toNat cv (fusedOverload_pos lat ho)] at hshed
  show (if _ = 0 ∧ _ = true then _ else _ : UInt32).toNat = _
  simp only [hfault, and_true]
  by_cases h : (overloaded cv gamma true stats lat tr).shedPpm = 0
  · rw [if_pos h, if_pos]
    · rfl
    · rw [h] at hshed
      exact hshed.symm
  · rw [if_neg h, if_neg]
    · exact hshed
    · intro hz
      rw [← UInt32.toNat_inj] at h
      exact h (hshed.trans hz)

/-! ## Where the order is kept -/

/-- The rate of a fused overload `e` comes out as zero: below one part per million, or at
    one and cut by the controller. -/
def Vanishes (cv : Conv) (gamma : ℚ) (stats : XdpStat) (e : ℚ) : Prop :=
  e ^ shedExponent cv gamma * 1000000 < 1 ∨ e ^ shedExponent cv gamma * 1000000 < 2 ∧ Overshoots stats 1

instance (cv : Conv) (gamma : ℚ) (stats : XdpStat) (e : ℚ) : Decidable (Vanishes cv gamma stats e) :=
  inferInstanceAs (Decidable (_ ∨ _))

/-- Everything is to be shed, and the controller leaves it at that. -/
def Full (stats : XdpStat) (e : ℚ) : Prop := 1 ≤ e ∧ ¬ Overshoots stats 1000000

theorem controlledPpm_eq_zero (stats : XdpStat) (t : ℕ) :
    controlledPpm stats t = 0 ↔ t = 0 ∨ t = 1 ∧ Overshoots stats 1 := by
  unfold controlledPpm
  by_cases h1 : t = 1
  · subst h1
    split <;> simp [*]
  · split <;> omega

theorem vanishes_iff (cv : Conv) (gamma : ℚ) (stats : XdpStat) {e : ℚ} (he : 0 < e) :
    controlledPpm stats (targetPpm cv gamma e) = 0 ↔ Vanishes cv gamma stats e := by
  have hpos : 0 < e ^ shedExponent cv gamma * 1000000 := by positivity
  unfold Vanishes
  rw [controlledPpm_eq_zero]
  unfold targetPpm
  generalize e ^ shedExponent cv gamma * 1000000 = x at *
  have h0 : 0 ≤ ⌊x⌋ := Int.floor_nonneg.mpr hpos.le
  have h1 : ⌊x⌋ < 1 ↔ x < 1 := by rw [Int.floor_lt]; norm_num
  have h2 : ⌊x⌋ < 2 ↔ x < 2 := by rw [Int.floor_lt]; norm_num
  rw [← h1, ← h2]
  constructor
  · intro h
    rcases h with h | ⟨h, hov⟩
    · exact Or.inl (by omega)
    · exact Or.inr ⟨by omega, hov⟩
  · intro h
    by_cases hlt : ⌊x⌋ < 1
    · exact Or.inl (by omega)
    · rcases h with h | ⟨h, hov⟩
      · exact absurd h hlt
      · exact Or.inr ⟨by omega, hov⟩

theorem full_iff (cv : Conv) (gamma : ℚ) (stats : XdpStat) {e : ℚ} (he : 0 < e) :
    controlledPpm stats (targetPpm cv gamma e) = 1000000 ↔ Full stats e := by
  have htop : targetPpm cv gamma e = 1000000 ↔ 1 ≤ e := by
    have hone : 1 ≤ e ^ shedExponent cv gamma ↔ 1 ≤ e := one_le_pow_iff_of_nonneg he.le (Nat.succ_ne_zero _)
    have hfloor : (1000000 : ℤ) ≤ ⌊e ^ shedExponent cv gamma * 1000000⌋ ↔ 1 ≤ e ^ shedExponent cv gamma := by
      rw [Int.le_floor]
      push_cast
      constructor <;> intro h <;> linarith
    rw [← hone, ← hfloor]
    unfold targetPpm
    omega
  have hle : targetPpm cv gamma e ≤ 1000000 := Nat.min_le_left _ _
  unfold Full
  rw [← htop]
  unfold controlledPpm
  by_cases hov : Overshoots stats (targetPpm cv gamma e)
  · rw [if_pos hov]
    refine iff_of_false (by omega) ?_
    intro h
    rw [h.1] at hov
    exact h.2 hov
  · rw [if_neg hov]
    constructor
    · intro h
      rw [h] at hov
      exact ⟨h, hov⟩
    · intro h
      exact h.1

/-- Of two ticks that differ in the traffic overload alone, the larger sheds no less exactly
    when the smaller one's rate does not vanish, or the larger one's does too or is full. -/
theorem shed_rate_mono_iff (cv : Conv) (gamma : ℚ) (stats : XdpStat) (ifindex : UInt32) (lat : Snapshot)
    (tr : TrafficSnapshot) (o1 o2 : ℚ) (hpre : tr.preFault = true) (h1 : 0 < o1) (h12 : o1 ≤ o2) :
    writtenShedPpm cv gamma stats ifindex lat { tr with overload := o1 } ≤
        writtenShedPpm cv gamma stats ifindex lat { tr with overload := o2 } ↔
      (Vanishes cv gamma stats (fusedOverload lat o1) →
        Vanishes cv gamma stats (fusedOverload lat o2) ∨ Full stats (fusedOverload lat o2)) := by
  have he1 := fusedOverload_pos lat h1
  have he2 := fusedOverload_pos lat (lt_of_lt_of_le h1 h12)
  have hmono := controlledPpm_mono stats (targetPpm_mono cv gamma he1 (fusedOverload_mono lat h12))
  have hle : controlledPpm stats (targetPpm cv gamma (fusedOverload lat o2)) ≤ 1000000 := by
    have ht : targetPpm cv gamma (fusedOverload lat o2) ≤ 1000000 := Nat.min_le_left _ _
    unfold controlledPpm
    split <;> omega
  rw [UInt32.le_iff_toNat_le, writtenShedPpm_toNat cv gamma stats ifindex lat (by exact hpre) (by exact h1),
    writtenShedPpm_toNat cv gamma stats ifindex lat (by exact hpre) (by exact lt_of_lt_of_le h1 h12),
    ← vanishes_iff cv gamma stats he1, ← vanishes_iff cv gamma stats he2, ← full_iff cv gamma stats he2]
  show (if controlledPpm stats (targetPpm cv gamma (fusedOverload lat o1)) = 0 then _ else _) ≤
    (if controlledPpm stats (targetPpm cv gamma (fusedOverload lat o2)) = 0 then _ else _) ↔ _
  generalize controlledPpm stats (targetPpm cv gamma (fusedOverload lat o1)) = a at *
  generalize controlledPpm stats (targetPpm cv gamma (fusedOverload lat o2)) = b at *
  split <;> split <;> omega

def calmLatency : Snapshot := { noSnapshot with cause := .none }
def busyTraffic : TrafficSnapshot := ⟨800, 800, 0, 0, 8 / 10, 8 / 10, 1 / 3, true⟩

theorem shed_rate_mono_half :
    writtenShedPpm saturating 2 ⟨0, 0, 0⟩ 0 calmLatency { busyTraffic with overload := 1 / 2 } ≤
      writtenShedPpm saturating 2 ⟨0, 0, 0⟩ 0 calmLatency { busyTraffic with overload := 3 / 4 } := by
  refine (shed_rate_mono_iff saturating 2 ⟨0, 0, 0⟩ 0 calmLatency busyTraffic (1 / 2) (3 / 4) rfl (by norm_num)
    (by norm_num)).mpr ?_
  intro h
  exact absurd h (by decide +kernel)

/-- An overload of a ten thousandth has everything shed, one of a half a quarter. -/
theorem tiny_overload_sheds_more :
    ¬ writtenShedPpm saturating 2 ⟨0, 0, 0⟩ 0 calmLatency { busyTraffic with overload := 1 / 10000 } ≤
      writtenShedPpm saturating 2 ⟨0, 0, 0⟩ 0 calmLatency { busyTraffic with overload := 1 / 2 } := by
  decide +kernel

end EliteTelemetry.Forecaster
