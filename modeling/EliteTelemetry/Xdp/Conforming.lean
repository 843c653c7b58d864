/-
  EliteTelemetry.Xdp.Conforming — sources that keep to their rate are never refused.

  A bucket starts with its rate of tokens, and the first call more than a second after the
  last refill adds the rate once for each whole second. Up to a second later there is no
  refill, but in a second a source that keeps to its rate has no more calls than the tokens
  there were (`Lib.Limiter.Room`). So it always finds one (`conforming_never_refused`).

  The 64-bit sums of the refill do not wrap: with parts per million up to a million the rate
  is a 32-bit number, and times below 2^60 ns are fewer than 2^31 seconds.
-/

import EliteTelemetry.Xdp.Charges

namespace EliteTelemetry.Xdp

open EliteTelemetry.Lib.Machine
open EliteTelemetry.Lib.Limiter (Conforms Room room_of_refill)

/-! ## The rate and the refill -/

/-- No tier is refilled faster than at the whole rate. -/
def WithinScale (val : PolicyValue) : Prop := ∀ i : Fin 4, (val.tierRefillPpm.get i).toNat ≤ 1000000

instance (val : PolicyValue) : Decidable (WithinScale val) := inferInstanceAs (Decidable (∀ _, _))

variable {val : PolicyValue} {k : SrcKey}

theorem tierPpm_le (h : WithinScale val) (tier : UInt8) : (tierPpm val tier).toNat ≤ 1000000 := by
  have hppm : (if h : tier.toNat < 4 then val.tierRefillPpm.get ⟨tier.toNat, h⟩ else ppmScale).toNat ≤ 1000000 := by
    split
    · exact h _
    · exact Nat.le_refl _
  simp only [tierPpm]
  generalize (if h : tier.toNat < 4 then val.tierRefillPpm.get ⟨tier.toNat, h⟩ else ppmScale) = ppm at hppm ⊢
  split
  · decide
  · exact hppm

theorem refillRate_lt_32 (h : WithinScale val) (tier : UInt8) : (refillRate val tier).toNat < 2 ^ 32 := by
  have hmu := (tokenMu val).toNat_lt
  have hle : (tokenMu val).toNat * (tierPpm val tier).toNat / 1000000 ≤ (tokenMu val).toNat :=
    Nat.div_le_of_le_mul (by rw [Nat.mul_comm 1000000]; exact Nat.mul_le_mul_left _ (tierPpm_le h tier))
  rw [refillRate_toNat]
  omega

/-- More than a second after the last, a refill leaves the rate or more. -/
theorem refill_due {rate now : UInt64} {b : TokenBucket} (hrate : rate.toNat < 2 ^ 32) (hnow : now.toNat < 2 ^ 60)
    (hcap : b.tokens.toNat ≤ 10 * rate.toNat) (hdue : b.lastRefillNs.toNat + 1000000000 < now.toNat) :
    rate.toNat ≤ (refill rate now b).tokens.toNat ∧ (refill rate now b).lastRefillNs = now := by
  have hle : b.lastRefillNs ≤ now := UInt64.le_iff_toNat_le.mpr (by omega)
  have helapsed := elapsed_toNat hle
  have hlt : nsPerSec < now - b.lastRefillNs := by
    rw [UInt64.lt_iff_toNat_lt, helapsed]
    show 1000000000 < _
    omega
  -- whole seconds since the last refill: at least one, and few enough for 64 bits
  have hone : 1 ≤ (now.toNat - b.lastRefillNs.toNat) / 1000000000 := by omega
  have hfew : (now.toNat - b.lastRefillNs.toNat) / 1000000000 < 2 ^ 31 := by omega
  have hbig : (now.toNat - b.lastRefillNs.toNat) / 1000000000 * rate.toNat < 2 ^ 31 * 2 ^ 32 :=
    Nat.mul_lt_mul_of_lt_of_lt hfew hrate
  have hcredit : ((now - b.lastRefillNs) / nsPerSec * rate).toNat =
      (now.toNat - b.lastRefillNs.toNat) / 1000000000 * rate.toNat := by
    rw [UInt64.toNat_mul, UInt64.toNat_div, helapsed]
    exact Nat.mod_eq_of_lt (Nat.lt_of_lt_of_le hbig (by decide))
  have hleast : rate.toNat ≤ (now.toNat - b.lastRefillNs.toNat) / 1000000000 * rate.toNat :=
    Nat.le_mul_of_pos_left _ hone
  have hsum : (b.tokens + (now - b.lastRefillNs) / nsPerSec * rate).toNat =
      b.tokens.toNat + (now.toNat - b.lastRefillNs.toNat) / 1000000000 * rate.toNat := by
    rw [UInt64.toNat_add, hcredit]
    exact Nat.mod_eq_of_lt (by omega)
  have hten := rate_mul_ten rate (by omega)
  simp only [refill, if_pos hlt, and_true]
  split
  · rw [hten]
    omega
  · rw [hsum]
    omega

/-! ## The calls of one key -/

def timesOf (k : SrcKey) (evs : List BucketEv) : List Nat :=
  evs.filterMap fun
    | .consume k' now _ => if k' = k then some now.toNat else none
    | .evict _ => none

theorem timesOf_consume (k : SrcKey) (now : UInt64) (stored : Bool) (evs : List BucketEv) :
    timesOf k (.consume k now stored :: evs) = now.toNat :: timesOf k evs := by
  simp [timesOf]

theorem timesOf_consume_ne {k' : SrcKey} (h : k' ≠ k) (now : UInt64) (stored : Bool) (evs : List BucketEv) :
    timesOf k (.consume k' now stored :: evs) = timesOf k evs := by
  simp [timesOf, h]

theorem timesOf_evict (k k' : SrcKey) (evs : List BucketEv) : timesOf k (.evict k' :: evs) = timesOf k evs := by
  simp [timesOf]

/-- There is no bucket yet, or one with room for the calls to come at `times`. -/
inductive Ready (rate : UInt64) (times : List Nat) : Option TokenBucket → Prop
  | fresh : Ready rate times none
  | opened (b : TokenBucket) (used : Nat) (cap : b.tokens.toNat ≤ 10 * rate.toNat)
      (past : ∀ t ∈ times, b.lastRefillNs.toNat ≤ t)
      (room : Room rate.toNat 1000000000 b.tokens.toNat b.lastRefillNs.toNat used times) : Ready rate times (some b)

section Calls

variable {rate now : UInt64} {b : TokenBucket} {times : List Nat}

/-- A call that comes within a second of the refill pays, and leaves room for the others. -/
theorem charge_ready (used : Nat) (hcap : b.tokens.toNat ≤ 10 * rate.toNat)
    (hpast : ∀ t ∈ now.toNat :: times, b.lastRefillNs.toNat ≤ t) (hnow : now.toNat ≤ b.lastRefillNs.toNat + 1000000000)
    (hroom : Room rate.toNat 1000000000 b.tokens.toNat b.lastRefillNs.toNat used (now.toNat :: times)) :
    (charge b 1).1 = true ∧ Ready rate times (some (charge b 1).2) := by
  obtain ⟨hpos, hrest⟩ := hroom.pays hnow
  rcases charge_one b with ⟨hcharge, -, htokens⟩ | ⟨-, hzero⟩
  · rw [hcharge]
    refine ⟨rfl, .opened _ (used + 1) ?_ (fun t ht => hpast t (by simp [ht])) ?_⟩
    · show (b.tokens - 1).toNat ≤ _
      omega
    · show Room _ _ (b.tokens - 1).toNat _ _ _
      rw [htokens]
      exact hrest
  · omega

theorem pay_ready (hrate : rate.toNat < 2 ^ 32) (hnow : now.toNat < 2 ^ 60)
    (hconf : Conforms rate.toNat 1000000000 (now.toNat :: times)) (hsorted : ∀ t ∈ times, now.toNat ≤ t)
    (h : Ready rate (now.toNat :: times) (some b)) :
    (pay rate now b).1 = true ∧ Ready rate times (some (pay rate now b).2) := by
  obtain ⟨used, hcap, hpast, hroom⟩ : ∃ used, b.tokens.toNat ≤ 10 * rate.toNat ∧
      (∀ t ∈ now.toNat :: times, b.lastRefillNs.toNat ≤ t) ∧
      Room rate.toNat 1000000000 b.tokens.toNat b.lastRefillNs.toNat used (now.toNat :: times) := by
    cases h with
    | opened _ used hcap hpast hroom => exact ⟨used, hcap, hpast, hroom⟩
  have hlater : ∀ t ∈ now.toNat :: times, now.toNat ≤ t := by simpa using hsorted
  by_cases hdue : b.lastRefillNs.toNat + 1000000000 < now.toNat
  · obtain ⟨htokens, hlast⟩ := refill_due hrate hnow hcap hdue
    have hcap' := refill_capped rate now b
      (UInt64.le_iff_toNat_le.mpr (by rw [rate_mul_ten rate (by omega)]; omega))
    rw [UInt64.le_iff_toNat_le, rate_mul_ten rate (by omega)] at hcap'
    rw [pay]
    have hpast' : ∀ t ∈ now.toNat :: times, (refill rate now b).lastRefillNs.toNat ≤ t := by rwa [hlast]
    refine charge_ready 0 (by omega) hpast' (by rw [hlast]; omega) ?_
    rw [hlast]
    exact room_of_refill hconf hlater htokens
  · have hstill : refill rate now b = b := by
      refine refill_still rate now b (UInt64.le_iff_toNat_le.mpr ?_)
      rw [elapsed_toNat (UInt64.le_iff_toNat_le.mpr (hpast _ (by simp)))]
      show _ ≤ 1000000000
      omega
    rw [pay, hstill]
    exact charge_ready used hcap hpast (by omega) hroom

end Calls

theorem consume_ready (hscale : WithinScale val) {bs : Buckets} {now : UInt64} (stored : Bool) {times : List Nat}
    (hnow : now.toNat < 2 ^ 60) (hconf : Conforms (refillRate val k.tier).toNat 1000000000 (now.toNat :: times))
    (hsorted : ∀ t ∈ times, now.toNat ≤ t) (h : Ready (refillRate val k.tier) (now.toNat :: times) (bs k)) :
    (tokenConsume val bs k.srcIp k.tier 1 now stored).1 = true ∧
      Ready (refillRate val k.tier) times ((tokenConsume val bs k.srcIp k.tier 1 now stored).2 k) := by
  have hrate := refillRate_lt_32 hscale k.tier
  cases hb : bs k with
  | some b =>
    rw [hb] at h
    simp only [tokenConsume_found val bs k now stored hb, setBucket_same]
    exact pay_ready hrate hnow hconf hsorted h
  | none =>
    cases stored with
    | true =>
      have hlater : ∀ t ∈ now.toNat :: times, now.toNat ≤ t := by simpa using hsorted
      simp only [tokenConsume_new val bs k now hb, setBucket_same]
      refine pay_ready hrate hnow hconf hsorted (.opened _ 0 ?_ hlater (room_of_refill hconf hlater (Nat.le_refl _)))
      show (refillRate val k.tier).toNat ≤ _
      omega
    | false =>
      have hlost : tokenConsume val bs k.srcIp k.tier 1 now false = (true, bs) := by simp [tokenConsume, hb]
      simp only [hlost, hb]
      exact ⟨trivial, .fresh⟩

/-! ## Runs -/

/-- Whatever happens to other keys, the calls of a key that is ready for them all succeed. -/
theorem run_ready (hscale : WithinScale val) (evs : List BucketEv) :
    ∀ {bs : Buckets}, BucketEv.evict k ∉ evs → (timesOf k evs).Pairwise (· ≤ ·) → (∀ t ∈ timesOf k evs, t < 2 ^ 60) →
      Conforms (refillRate val k.tier).toNat 1000000000 (timesOf k evs) →
      Ready (refillRate val k.tier) (timesOf k evs) (bs k) → some (k, false) ∉ (exec (bucketStep val) bs evs).1 := by
  induction evs with
  | nil => simp [exec]
  | cons e evs ih =>
    intro bs hkeep hsorted hbound hconf hready
    have hkeep' : BucketEv.evict k ∉ evs := fun hm => hkeep (List.mem_cons_of_mem _ hm)
    rw [exec_cons, List.mem_cons, not_or]
    cases e with
    | evict k' =>
      have hne : k ≠ k' := fun e => hkeep (by simp [e])
      rw [timesOf_evict] at hsorted hbound hconf hready
      refine ⟨by simp [bucketStep], ih hkeep' hsorted hbound hconf ?_⟩
      simpa [bucketStep, hne] using hready
    | consume k' now stored =>
      by_cases hk : k' = k
      · subst hk
        rw [timesOf_consume] at hsorted hbound hconf hready
        rw [List.pairwise_cons] at hsorted
        obtain ⟨hpaid, hready'⟩ := consume_ready hscale stored (hbound _ (by simp)) hconf hsorted.1 hready
        refine ⟨by simp [bucketStep, hpaid], ih hkeep' hsorted.2 (fun t ht => hbound t (by simp [ht])) ?_ hready'⟩
        exact hconf.sublist (List.sublist_cons_self _ _)
      · rw [timesOf_consume_ne hk] at hsorted hbound hconf hready
        refine ⟨by simp [bucketStep, Ne.symm hk], ih hkeep' hsorted hbound hconf ?_⟩
        show Ready _ _ ((tokenConsume val bs k'.srcIp k'.tier 1 now stored).2 k)
        rw [tokenConsume_other val bs now stored (Ne.symm hk)]
        exact hready

/-- A source that never makes more calls than its rate in a second, ends included, is never
    refused: whatever other keys do, as long as its own bucket is kept. -/
theorem conforming_never_refused {val : PolicyValue} (hscale : WithinScale val) {k : SrcKey} {bs : Buckets}
    (hnew : bs k = none) {evs : List BucketEv} (hkeep : BucketEv.evict k ∉ evs)
    (hsorted : (timesOf k evs).Pairwise (· ≤ ·)) (hbound : ∀ t ∈ timesOf k evs, t < 2 ^ 60)
    (hconf : Conforms (refillRate val k.tier).toNat 1000000000 (timesOf k evs)) :
    some (k, false) ∉ (exec (bucketStep val) bs evs).1 :=
  run_ready hscale evs hkeep hsorted hbound hconf (hnew ▸ .fresh)

/-- Two tokens a second, and calls two at a time a little more than a second apart. -/
theorem conforming_never_refused_trickle :
    let evs : List BucketEv := [.consume ⟨7, 0⟩ 10 true, .consume ⟨7, 0⟩ 10 true, .consume ⟨8, 0⟩ 20 true,
      .consume ⟨7, 0⟩ 1000000011 true, .consume ⟨7, 0⟩ 1000000011 true]
    some (⟨7, 0⟩, false) ∉ (exec (bucketStep tricklePolicy) (fun _ => none) evs).1 := by
  intro evs
  refine conforming_never_refused (by decide) rfl (by decide) (by decide) (by decide) fun start => ?_
  rw [show (refillRate tricklePolicy (SrcKey.tier ⟨7, 0⟩)).toNat = 2 by decide,
    show timesOf ⟨7, 0⟩ evs = [10, 10, 1000000011, 1000000011] by decide]
  -- no second has calls of both pairs
  by_cases hfirst : start ≤ 10
  · simp [hfirst, show ¬1000000011 ≤ start + 1000000000 by omega]
  · have htwo := List.length_filter_le (fun t => start ≤ t ∧ t ≤ start + 1000000000) [1000000011, 1000000011]
    simpa [hfirst] using htwo

end EliteTelemetry.Xdp
