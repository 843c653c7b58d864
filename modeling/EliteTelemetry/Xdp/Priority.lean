/-
  EliteTelemetry.Xdp.Priority — two tiers of one packet compared.

  A packet's tier decides two things: the rate of the bucket it pays from, and how much of
  the shed rate applies to it. The second respects the order of the tiers for any byte
  (`sheds_mono`). The first does not: `port_tier` hands out whatever byte the map holds
  (`vip_tier`'s is checked), and `token_consume` gives byte 3 half the rate and bytes from 4
  on all of it, more than background's tenth.

  `admitParsed_verdict` gives the verdict of a parsed packet by its tier. From it: a packet
  passed in tier b and dropped in a smaller a is one for which b's bucket pays at a site
  where a's does not (`kept_iff_not_overtakes`). With the default refill rates and the same
  content in both buckets that needs b to refill faster than a. So priority is kept for every
  packet and policy exactly where the two bytes refill in order (`priority_kept_iff`): always
  among the program's own tiers, and below byte 3 only from critical and, for 3 itself, from
  standard.
-/

import EliteTelemetry.Xdp.Charges
import EliteTelemetry.Xdp.LambdaRing
import Mathlib.Tactic.SplitIfs

namespace EliteTelemetry.Xdp

/-! ## A charge, by the bucket it finds -/

/-- The bucket a charge finds, refilled; a new one where there is none and it is stored. -/
def atSite (rate now : UInt64) (stored : Bool) : Option TokenBucket → Option TokenBucket
  | some b => some (refill rate now b)
  | none => if stored then some (refill rate now ⟨rate, now⟩) else none

/-- A charge is paid by a bucket with a token, and where no bucket was found. -/
def pays (found : Option TokenBucket) : Bool := found.all fun b => 1 ≤ b.tokens.toNat

theorem tokenConsume_site (val : PolicyValue) (bs : Buckets) (k : SrcKey) (now : UInt64) (stored : Bool) :
    (tokenConsume val bs k.srcIp k.tier 1 now stored).1 = pays (atSite (refillRate val k.tier) now stored (bs k)) ∧
      (tokenConsume val bs k.srcIp k.tier 1 now stored).2 k =
        (atSite (refillRate val k.tier) now stored (bs k)).map (drain · 1) := by
  cases hb : bs k with
  | some b =>
    rw [tokenConsume_found val bs k now stored hb, pay, charge_drains]
    exact ⟨by simp [atSite, pays], by simp [atSite]⟩
  | none =>
    cases stored with
    | true =>
      rw [tokenConsume_new val bs k now hb, pay, charge_drains]
      exact ⟨by simp [atSite, pays], by simp [atSite]⟩
    | false => simp [tokenConsume, hb, atSite, pays]

/-! ## The verdict by tier -/

def escalated (val : PolicyValue) (h : Headers) : Bool := hasFlag val escSynProxy && h.isSyn

def synSite (c : Ctx) (s : Shared) (val : PolicyValue) (h : Headers) (tier : UInt8) : Option TokenBucket :=
  atSite (refillRate val tier) c.synNs c.synStored (s.srcBuckets ⟨h.srcIp, tier⟩)

def admitSite (c : Ctx) (s : Shared) (val : PolicyValue) (h : Headers) (tier : UInt8) : Option TokenBucket :=
  atSite (refillRate val tier) c.admitNs c.admitStored
    (if escalated val h then (synSite c s val h tier).map (drain · 1) else s.srcBuckets ⟨h.srcIp, tier⟩)

def Sheds (c : Ctx) (val : PolicyValue) (tier : UInt8) : Prop :=
  0 < tierDropPpm val tier ∧ c.rnd % ppmScale < tierDropPpm val tier

def Diverts (s : Shared) (val : PolicyValue) (tier : UInt8) : Prop :=
  tier = tierCritical ∧ (0 < s.devmap.getD 0 ∨ 0 < val.redirectIfindex)

def LegacyDrops (c : Ctx) (val : PolicyValue) : Prop :=
  if policyVersionV2 ≤ val.policyVersion ∧ 0 < val.shedPpm then c.rnd % ppmScale < val.shedPpm
  else val.fault ≠ 0 ∧ (val.cause = causeNetwork ∨ val.cause = causeMixed)

def DropsAfter (c : Ctx) (s : Shared) (val : PolicyValue) (h : Headers) (tier : UInt8) : Prop :=
  if policyVersionV3 ≤ val.policyVersion then
    pays (admitSite c s val h tier) = false ∧ Sheds c val tier ∧ ¬ Diverts s val tier
  else LegacyDrops c val

def PassesAfter (c : Ctx) (s : Shared) (val : PolicyValue) (h : Headers) (tier : UInt8) : Prop :=
  if policyVersionV3 ≤ val.policyVersion then pays (admitSite c s val h tier) = true ∨ ¬ Sheds c val tier
  else ¬ LegacyDrops c val ∧ ¬ RedirectsLegacy c val

def Escapes (c : Ctx) (s : Shared) (val : PolicyValue) (h : Headers) (tier : UInt8) : Prop :=
  escalated val h = true → pays (synSite c s val h tier) = true

variable {c : Ctx} {m : Maps} {val : PolicyValue} {h : Headers}

theorem admitLegacy_drop (syn : UInt32) : (admitLegacy c m val syn).1 = .drop ↔ LegacyDrops c val := by
  unfold admitLegacy LegacyDrops
  split
  · split
    · simp [*]
    · split <;> simp [*]
  · split <;> simp [*]

theorem admitLegacy_pass (syn : UInt32) :
    (admitLegacy c m val syn).1 = .pass ↔ ¬ LegacyDrops c val ∧ ¬ RedirectsLegacy c val := by
  rw [← admitLegacy_drop (m := m) syn, ← admitLegacy_redirect c m val syn]
  cases (admitLegacy c m val syn).1 <;> simp [Verdict.isRedirect]

theorem synEscalate_site (c : Ctx) (s : Shared) (val : PolicyValue) (h : Headers) :
    ((synEscalate c s val h).1 = true ↔ Escapes c s val h (classify s h)) ∧
      (synEscalate c s val h).2 ⟨h.srcIp, classify s h⟩ =
        if escalated val h then (synSite c s val h (classify s h)).map (drain · 1)
        else s.srcBuckets ⟨h.srcIp, classify s h⟩ := by
  unfold synEscalate Escapes
  by_cases hesc : escalated val h = true
  · have hesc' : (hasFlag val escSynProxy && h.isSyn) = true := hesc
    obtain ⟨h1, h2⟩ := tokenConsume_site val s.srcBuckets ⟨h.srcIp, classify s h⟩ c.synNs c.synStored
    rw [if_pos hesc', if_pos hesc, h1, h2]
    exact ⟨by simp [hesc, synSite], rfl⟩
  · have hesc' : ¬ (hasFlag val escSynProxy && h.isSyn) = true := hesc
    rw [if_neg hesc', if_neg hesc]
    exact ⟨by simp [hesc], rfl⟩

theorem admitV3_verdict (c : Ctx) (m : Maps) (val : PolicyValue) (h : Headers) (tier : UInt8) (syn : UInt32) :
    let paid := (tokenConsume val m.shared.srcBuckets h.srcIp tier 1 c.admitNs c.admitStored).1
    ((admitV3 c m val h tier syn).1 = .drop ↔ paid = false ∧ Sheds c val tier ∧ ¬ Diverts m.shared val tier) ∧
      ((admitV3 c m val h tier syn).1 = .pass ↔ paid = true ∨ ¬ Sheds c val tier) := by
  intro paid
  simp only [admitV3, Sheds, Diverts]
  by_cases hpaid : paid = true
  · rw [if_pos hpaid]
    simp [hpaid]
  · rw [if_neg hpaid]
    by_cases hshed : 0 < tierDropPpm val tier ∧ c.rnd % ppmScale < tierDropPpm val tier
    · rw [if_pos hshed]
      have hstop : ¬ (paid = true ∨ ¬ (0 < tierDropPpm val tier ∧ c.rnd % ppmScale < tierDropPpm val tier)) := by
        rintro (hx | hx)
        · exact hpaid hx
        · exact hx hshed
      by_cases hdev : tier = tierCritical ∧ 0 < m.shared.devmap.getD 0
      · rw [if_pos (by simpa [Maps.withBuckets] using hdev)]
        exact ⟨iff_of_false (by simp) fun hx => hx.2.2 ⟨hdev.1, Or.inl hdev.2⟩, iff_of_false (by simp) hstop⟩
      · rw [if_neg (by simpa [Maps.withBuckets] using hdev)]
        by_cases hif : 0 < val.redirectIfindex ∧ tier = tierCritical
        · rw [if_pos hif]
          exact ⟨iff_of_false (by simp) fun hx => hx.2.2 ⟨hif.2, Or.inr hif.1⟩, iff_of_false (by simp) hstop⟩
        · rw [if_neg hif]
          refine ⟨iff_of_true (by simp) ⟨by simpa using hpaid, hshed, ?_⟩, iff_of_false (by simp) hstop⟩
          rintro ⟨ht, hd | hd⟩
          · exact hdev ⟨ht, hd⟩
          · exact hif ⟨hd, ht⟩
    · rw [if_neg hshed]
      simp [hshed]

/-- The verdict of a parsed, unblocked packet, by the tier it is put in. -/
theorem admitParsed_verdict (hblk : blocked m.shared val h = false) :
    let tier := classify m.shared h
    ((admitParsed c m val h).1 = .drop ↔ (Escapes c m.shared val h tier → DropsAfter c m.shared val h tier)) ∧
      ((admitParsed c m val h).1 = .pass ↔ Escapes c m.shared val h tier ∧ PassesAfter c m.shared val h tier) := by
  intro tier
  obtain ⟨hesc, hbs⟩ := synEscalate_site c m.shared val h
  simp only [admitParsed, hblk, Bool.false_eq_true, if_false]
  by_cases he : (synEscalate c m.shared val h).1 = true
  · rw [if_neg (by simp [he])]
    have he' := hesc.mp he
    unfold DropsAfter PassesAfter
    by_cases hv : policyVersionV3 ≤ val.policyVersion
    · rw [if_pos hv, if_pos hv, if_pos hv]
      obtain ⟨hpaid, -⟩ := tokenConsume_site val (synEscalate c m.shared val h).2 ⟨h.srcIp, tier⟩ c.admitNs c.admitStored
      rw [hbs] at hpaid
      obtain ⟨hd, hp⟩ := admitV3_verdict c (m.withBuckets (synEscalate c m.shared val h).2) val h tier
        (synBatch h.isSyn)
      have hsite : (tokenConsume val (m.withBuckets (synEscalate c m.shared val h).2).shared.srcBuckets h.srcIp tier 1
          c.admitNs c.admitStored).1 = pays (admitSite c m.shared val h tier) := hpaid
      rw [hsite] at hd hp
      exact ⟨hd.trans ⟨fun hx _ => hx, fun hx => hx he'⟩, hp.trans ⟨fun hx => ⟨he', hx⟩, fun hx => hx.2⟩⟩
    · rw [if_neg hv, if_neg hv, if_neg hv]
      exact ⟨(admitLegacy_drop _).trans ⟨fun hx _ => hx, fun hx => hx he'⟩,
        (admitLegacy_pass _).trans ⟨fun hx => ⟨he', hx⟩, fun hx => hx.2⟩⟩
  · rw [if_pos (by simp [he])]
    have he' : ¬ Escapes c m.shared val h tier := fun hx => he (hesc.mpr hx)
    exact ⟨iff_of_true rfl fun hx => absurd hx he', iff_of_false (by simp) fun hx => he' hx.1⟩

/-! ## Two tiers -/

theorem tierDropPpm_mono (val : PolicyValue) {a b : UInt8} (hab : a < b) :
    tierDropPpm val a ≤ tierDropPpm val b := by
  have h20 : val.shedPpm / 20 ≤ val.shedPpm / 4 := by
    rw [UInt32.le_iff_toNat_le, UInt32.toNat_div, UInt32.toNat_div]
    exact Nat.div_le_div_left (by decide) (by decide)
  have h4 : val.shedPpm / 4 ≤ val.shedPpm := by
    rw [UInt32.le_iff_toNat_le, UInt32.toNat_div]
    exact Nat.div_le_self _ _
  have hb0 : b ≠ tierCritical := by
    intro e
    subst e
    exact absurd hab (UInt8.not_lt_zero)
  simp only [tierDropPpm, hb0, if_false]
  split
  · exact UInt32.le_refl _
  · by_cases ha0 : a = tierCritical
    · rw [if_pos ha0]
      split
      · exact h20
      · exact UInt32.le_trans h20 h4
    · rw [if_neg ha0]
      have hb1 : b ≠ tierStandard := by
        intro e
        subst e
        simp only [tierCritical, tierStandard, UInt8.lt_iff_toNat_lt, ← UInt8.toNat_inj, UInt8.reduceToNat] at *
        omega
      rw [if_neg hb1]
      split
      · exact h4
      · exact UInt32.le_refl _

theorem sheds_mono {a b : UInt8} (hab : a < b) (hs : Sheds c val a) : Sheds c val b := by
  have hle := tierDropPpm_mono val hab
  exact ⟨UInt32.lt_of_lt_of_le hs.1 hle, UInt32.lt_of_lt_of_le hs.2 hle⟩

/-- Tier `b`'s bucket pays at a site where tier `a`'s does not, and that decides: the SYN
    escalation stops the packet in `a` alone, or the draw sheds it in `a`. -/
def Overtakes (c : Ctx) (s : Shared) (val : PolicyValue) (h : Headers) (a b : UInt8) : Prop :=
  escalated val h = true ∧ pays (synSite c s val h a) = false ∧ pays (synSite c s val h b) = true ∧
      PassesAfter c s val h b ∨
    policyVersionV3 ≤ val.policyVersion ∧ Escapes c s val h a ∧ Escapes c s val h b ∧
      pays (admitSite c s val h a) = false ∧ pays (admitSite c s val h b) = true ∧ Sheds c val a ∧
      ¬ Diverts s val a

theorem overtakes_iff {s : Shared} {a b : UInt8} (hab : a < b) :
    Overtakes c s val h a b ↔ (Escapes c s val h b ∧ PassesAfter c s val h b) ∧
      (Escapes c s val h a → DropsAfter c s val h a) := by
  constructor
  · rintro (⟨hesc, ha, hb, hp⟩ | ⟨hv, hea, heb, ha, hb, hshed, hdiv⟩)
    · refine ⟨⟨fun _ => hb, hp⟩, fun hea => ?_⟩
      rw [hea hesc] at ha
      exact absurd ha (by simp)
    · refine ⟨⟨heb, ?_⟩, fun _ => ?_⟩
      · unfold PassesAfter
        rw [if_pos hv]
        exact Or.inl hb
      · unfold DropsAfter
        rw [if_pos hv]
        exact ⟨ha, hshed, hdiv⟩
  · rintro ⟨⟨heb, hp⟩, hd⟩
    by_cases hea : Escapes c s val h a
    · have hda := hd hea
      unfold DropsAfter at hda
      unfold PassesAfter at hp
      by_cases hv : policyVersionV3 ≤ val.policyVersion
      · rw [if_pos hv] at hda hp
        -- the draw sheds in `a`, so in `b` too: only the bucket can have passed it there
        rcases hp with hp | hp
        · exact Or.inr ⟨hv, hea, heb, hda.1, hp, hda.2⟩
        · exact absurd (sheds_mono hab hda.2.1) hp
      · rw [if_neg hv] at hda hp
        exact absurd hda hp.1
    · unfold Escapes at hea
      obtain ⟨hesc, ha⟩ := Classical.not_imp.mp hea
      exact Or.inl ⟨hesc, by simpa using ha, heb hesc, hp⟩

def Maps.withPortTier (m : Maps) (t : UInt8) : Maps := { m with shared := { m.shared with portTier := fun _ => some t } }

theorem classify_withPortTier (m : Maps) (t : UInt8) (h : Headers) :
    classify (m.withPortTier t).shared h =
      if vipTier m.shared h.srcIp < tierCount then vipTier m.shared h.srcIp else t := rfl

theorem not_drops_of_passes {s : Shared} {tier : UInt8} (hp : PassesAfter c s val h tier) :
    ¬ DropsAfter c s val h tier := by
  unfold PassesAfter at hp
  unfold DropsAfter
  by_cases hv : policyVersionV3 ≤ val.policyVersion
  · rw [if_pos hv] at hp ⊢
    rintro ⟨hpay, hshed, -⟩
    rcases hp with hp | hp
    · rw [hp] at hpay
      exact absurd hpay (by simp)
    · exact hp hshed
  · rw [if_neg hv] at hp ⊢
    exact hp.1

theorem parsed_kept_iff {a b : UInt8} (hab : a < b) :
    ((admitParsed c (m.withPortTier b) val h).1 = .pass → (admitParsed c (m.withPortTier a) val h).1 ≠ .drop) ↔
      (¬ vipTier m.shared h.srcIp < tierCount → blocked m.shared val h = false → ¬ Overtakes c m.shared val h a b) := by
  by_cases hblk : blocked m.shared val h = true
  · have hdrop : (admitParsed c (m.withPortTier b) val h).1 = .drop := by
      have : blocked (m.withPortTier b).shared val h = true := hblk
      simp [admitParsed, this]
    simp [hdrop, hblk]
  · rw [Bool.not_eq_true] at hblk
    obtain ⟨-, hpass⟩ := admitParsed_verdict (c := c) (m := m.withPortTier b) hblk
    obtain ⟨hdrop, -⟩ := admitParsed_verdict (c := c) (m := m.withPortTier a) hblk
    rw [Ne, hpass, hdrop, classify_withPortTier, classify_withPortTier]
    by_cases hvip : vipTier m.shared h.srcIp < tierCount
    · -- the source's own tier: both runs are the same
      simp only [hvip, if_true, not_true_eq_false, false_implies, iff_true]
      intro hp hd
      exact not_drops_of_passes hp.2 (hd hp.1)
    · simp only [hvip, if_false, not_false_eq_true, hblk, true_implies]
      rw [overtakes_iff hab]
      exact not_and.symm

theorem kept_iff_not_overtakes (c : Ctx) (m : Maps) {a b : UInt8} (hab : a < b) :
    ((xdpMitigator c (m.withPortTier b)).1 = .pass → (xdpMitigator c (m.withPortTier a)).1 ≠ .drop) ↔
      ∀ val h, m.shared.policy = some val → val.actuate ≠ 0 → parseIpv4Tcp c.frame = .ok h →
        ¬ vipTier m.shared h.srcIp < tierCount → blocked m.shared val h = false →
        ¬ Overtakes c m.shared val h a b := by
  have hpol : ∀ t, (m.withPortTier t).shared.policy = m.shared.policy := fun _ => rfl
  simp only [xdpMitigator, hpol]
  rcases hp : m.shared.policy with _ | val
  · simp
  by_cases ha : val.actuate = 0
  · refine iff_of_true (by simp [ha]) fun val' h hval hact => ?_
    cases hval
    exact absurd ha hact
  simp only [ha, if_false]
  rcases hf : parseIpv4Tcp c.frame with e | h
  · refine iff_of_true ?_ ?_
    · intro hpass hdrop
      exact (admitLegacy_pass 0).mp hpass |>.1 ((admitLegacy_drop 0).mp hdrop)
    · intro val' h _ _ hparse
      cases hparse
  · refine (parsed_kept_iff hab).trans ⟨fun hk val' h' hval _ hparse => ?_, fun hk => hk val h rfl ha rfl⟩
    cases hval
    cases hparse
    exact hk

/-! ## A bucket with a smaller rate -/

/-- The same stamp and no more tokens, or both absent. -/
def Poorer : Option TokenBucket → Option TokenBucket → Prop
  | none, none => True
  | some b, some a => b.lastRefillNs = a.lastRefillNs ∧ b.tokens.toNat ≤ a.tokens.toNat
  | _, _ => False

def secondsSince (last now : UInt64) : Nat := (now - last).toNat / 1000000000

def Fits (rate now : UInt64) (found : Option TokenBucket) : Prop :=
  ∀ b, found = some b → b.tokens.toNat + secondsSince b.lastRefillNs now * rate.toNat < 2 ^ 64

theorem poorer_refl : ∀ b : Option TokenBucket, Poorer b b
  | none => trivial
  | some _ => ⟨rfl, Nat.le_refl _⟩

theorem pays_of_poorer {b a : Option TokenBucket} (h : Poorer b a) (hb : pays b = true) : pays a = true := by
  cases b with
  | none =>
    cases a with
    | none => rfl
    | some a => exact h.elim
  | some b =>
    cases a with
    | none => exact h.elim
    | some a =>
      have hle := h.2
      simp only [pays, Option.all_some, decide_eq_true_eq] at hb ⊢
      omega

theorem drain_poorer {b a : Option TokenBucket} (h : Poorer b a) : Poorer (b.map (drain · 1)) (a.map (drain · 1)) := by
  cases b with
  | none =>
    cases a with
    | none => trivial
    | some a => exact h.elim
  | some b =>
    cases a with
    | none => exact h.elim
    | some a =>
      refine ⟨h.1, ?_⟩
      show (drain b 1).tokens.toNat ≤ (drain a 1).tokens.toNat
      rw [drain_tokens, drain_tokens]
      exact Nat.sub_le_sub_right h.2 1

theorem refill_toNat {rate now : UInt64} {b : TokenBucket} (hr : rate.toNat < 2 ^ 45) (hdue : nsPerSec < now - b.lastRefillNs)
    (hf : b.tokens.toNat + (now - b.lastRefillNs).toNat / 1000000000 * rate.toNat < 2 ^ 64) :
    (refill rate now b).tokens.toNat =
      min (rate.toNat * 10) (b.tokens.toNat + (now - b.lastRefillNs).toNat / 1000000000 * rate.toNat) := by
  have hten := rate_mul_ten rate hr
  have hsum : (b.tokens + (now - b.lastRefillNs) / nsPerSec * rate).toNat =
      b.tokens.toNat + (now - b.lastRefillNs).toNat / 1000000000 * rate.toNat := by
    rw [UInt64.toNat_add, UInt64.toNat_mul, UInt64.toNat_div]
    show (_ + (_ / 1000000000 * _) % _) % _ = _
    have hcredit : (now - b.lastRefillNs).toNat / 1000000000 * rate.toNat < 2 ^ 64 := by omega
    rw [Nat.mod_eq_of_lt hcredit, Nat.mod_eq_of_lt hf]
  simp only [refill, hdue, if_true]
  by_cases h : rate * 10 < b.tokens + (now - b.lastRefillNs) / nsPerSec * rate
  · rw [if_pos h, hten]
    rw [UInt64.lt_iff_toNat_lt] at h
    omega
  · rw [if_neg h, hsum]
    rw [UInt64.lt_iff_toNat_lt] at h
    omega

theorem refill_poorer {rb ra now : UInt64} {b a : TokenBucket} (hle : rb.toNat ≤ ra.toNat) (hra : ra.toNat < 2 ^ 45)
    (h : Poorer (some b) (some a)) (hf : Fits ra now (some a)) :
    Poorer (some (refill rb now b)) (some (refill ra now a)) := by
  obtain ⟨hst, htok⟩ := h
  have hfa : a.tokens.toNat + (now - a.lastRefillNs).toNat / 1000000000 * ra.toNat < 2 ^ 64 := hf a rfl
  have hmul : (now - a.lastRefillNs).toNat / 1000000000 * rb.toNat ≤ (now - a.lastRefillNs).toNat / 1000000000 * ra.toNat :=
    Nat.mul_le_mul_left _ hle
  by_cases hdue : nsPerSec < now - a.lastRefillNs
  · have hdueb : nsPerSec < now - b.lastRefillNs := by rwa [hst]
    refine ⟨by simp [refill, hdue, hdueb], ?_⟩
    rw [refill_toNat (by omega) hdueb (by rw [hst]; omega), refill_toNat hra hdue hfa, hst]
    omega
  · have hduea := refill_still ra now a (UInt64.not_lt.mp hdue)
    have hdueb := refill_still rb now b (by rw [hst]; exact UInt64.not_lt.mp hdue)
    rw [hduea, hdueb]
    exact ⟨hst, htok⟩

theorem atSite_poorer {rb ra now : UInt64} (stored : Bool) {b a : Option TokenBucket} (hle : rb.toNat ≤ ra.toNat)
    (hra : ra.toNat < 2 ^ 45) (h : Poorer b a) (hf : Fits ra now a) :
    Poorer (atSite rb now stored b) (atSite ra now stored a) := by
  cases b with
  | some b =>
    cases a with
    | none => exact h.elim
    | some a => exact refill_poorer hle hra h hf
  | none =>
    cases a with
    | some a => exact h.elim
    | none =>
      cases stored with
      | false => trivial
      | true =>
        refine refill_poorer hle hra ⟨rfl, hle⟩ ?_
        intro x hx
        cases hx
        show ra.toNat + (now - now).toNat / 1000000000 * ra.toNat < 2 ^ 64
        have hzero : (now - now).toNat = 0 := by simp
        rw [hzero]
        omega

/-! ## The two bytes -/

/-- No credit wraps: not at either charge of the bucket there is, and not at the second
    charge of one that was filled at the first. -/
structure CreditFits (c : Ctx) (rate : UInt64) (found : Option TokenBucket) : Prop where
  atSyn : Fits rate c.synNs found
  atAdmit : Fits rate c.admitNs found
  between : (10 + secondsSince c.synNs c.admitNs) * rate.toNat < 2 ^ 64

/-- The refill rates are the default ones, and the packet's source has the same in both
    buckets, or neither bucket. -/
structure Comparable (c : Ctx) (m : Maps) (a b : UInt8) : Prop where
  refill : ∀ val, m.shared.policy = some val → val.tierRefillPpm = defaultTierRefillPpm
  same : ∀ h, parseIpv4Tcp c.frame = .ok h → m.shared.srcBuckets ⟨h.srcIp, b⟩ = m.shared.srcBuckets ⟨h.srcIp, a⟩
  credit : ∀ val h, m.shared.policy = some val → parseIpv4Tcp c.frame = .ok h →
    CreditFits c (refillRate val a) (m.shared.srcBuckets ⟨h.srcIp, a⟩)

/-- Byte `b` has no larger share of the rate than the smaller `a`: bytes 0, 1 and 2 have all
    of it, half and a tenth, byte 3 half, every other byte all. -/
def RefillsInOrder (a b : UInt8) : Prop := b ≤ 2 ∨ a = 0 ∨ a = 1 ∧ b = 3 ∨ 4 ≤ a

theorem tierPpm_default {val : PolicyValue} (hppm : val.tierRefillPpm = defaultTierRefillPpm) (t : UInt8) :
    (tierPpm val t).toNat =
      if t = 0 then 1000000 else if t = 1 then 500000 else if t = 2 then 100000 else if t = 3 then 500000
      else 1000000 := by
  unfold tierPpm
  rw [hppm]
  by_cases ht : t.toNat < 4
  · have hcases : t = 0 ∨ t = 1 ∨ t = 2 ∨ t = 3 := by
      simp only [← UInt8.toNat_inj, UInt8.reduceToNat]
      omega
    rcases hcases with rfl | rfl | rfl | rfl <;> rfl
  · have hne : t ≠ 0 ∧ t ≠ 1 ∧ t ≠ 2 ∧ t ≠ 3 := by
      simp only [ne_eq, ← UInt8.toNat_inj, UInt8.reduceToNat]
      omega
    simp only [ht, dif_neg, not_false_eq_true, hne.1, hne.2.1, hne.2.2.1, hne.2.2.2, if_false]
    rfl

theorem refillRate_antitone {val : PolicyValue} (hppm : val.tierRefillPpm = defaultTierRefillPpm) {a b : UInt8}
    (hab : a < b) (hord : RefillsInOrder a b) : (refillRate val b).toNat ≤ (refillRate val a).toNat := by
  have hshare : (tierPpm val b).toNat ≤ (tierPpm val a).toNat := by
    rw [tierPpm_default hppm, tierPpm_default hppm]
    simp only [RefillsInOrder, UInt8.lt_iff_toNat_lt, UInt8.le_iff_toNat_le, ← UInt8.toNat_inj,
      UInt8.reduceToNat] at hab hord ⊢
    split_ifs <;> omega
  rw [refillRate_toNat, refillRate_toNat]
  have hmul := Nat.div_le_div_right (c := 1000000) (Nat.mul_le_mul_left (tokenMu val).toNat hshare)
  omega

theorem fits_second {s : Shared} {t : UInt8} (hf : CreditFits c (refillRate val t) (s.srcBuckets ⟨h.srcIp, t⟩)) :
    Fits (refillRate val t) c.admitNs
      (if escalated val h then (synSite c s val h t).map (drain · 1) else s.srcBuckets ⟨h.srcIp, t⟩) := by
  have hten := rate_mul_ten _ (refillRate_lt val t)
  have hbetween := hf.between
  split
  · intro x hx
    obtain ⟨y, hy, rfl⟩ := Option.map_eq_some_iff.mp hx
    have hdrain := drain_tokens y 1
    show (drain y 1).tokens.toNat + secondsSince y.lastRefillNs c.admitNs * _ < _
    rcases hb : s.srcBuckets ⟨h.srcIp, t⟩ with _ | b
    · rw [synSite, hb] at hy
      obtain ⟨-, hy⟩ := Option.ite_none_right_eq_some.mp hy
      rw [refill_still _ _ _ (by simp)] at hy
      obtain rfl := Option.some_inj.mp hy
      have hrate : (TokenBucket.tokens ⟨refillRate val t, c.synNs⟩).toNat = (refillRate val t).toNat := rfl
      rw [Nat.add_mul] at hbetween
      show _ + secondsSince c.synNs c.admitNs * _ < _
      omega
    · rw [synSite, hb] at hy
      obtain rfl : refill (refillRate val t) c.synNs b = y := Option.some_inj.mp hy
      by_cases hdue : nsPerSec < c.synNs - b.lastRefillNs
      · have hcap : (refill (refillRate val t) c.synNs b).tokens.toNat ≤ (refillRate val t).toNat * 10 := by
          rw [refill_toNat (refillRate_lt val t) hdue (hf.atSyn b hb)]
          exact Nat.min_le_left _ _
        have hlast : (refill (refillRate val t) c.synNs b).lastRefillNs = c.synNs := by simp [refill, hdue]
        rw [hlast]
        rw [Nat.add_mul] at hbetween
        omega
      · have hstill := refill_still (refillRate val t) c.synNs b (UInt64.not_lt.mp hdue)
        have hadmit := hf.atAdmit b hb
        rw [hstill] at hdrain ⊢
        omega
  · exact hf.atAdmit

/-- With the same content in both buckets, that of a byte which refills no faster overtakes
    nothing. -/
theorem not_overtakes {s : Shared} (hppm : val.tierRefillPpm = defaultTierRefillPpm) {a b : UInt8} (hab : a < b)
    (hord : RefillsInOrder a b) (hsame : s.srcBuckets ⟨h.srcIp, b⟩ = s.srcBuckets ⟨h.srcIp, a⟩)
    (hfits : CreditFits c (refillRate val a) (s.srcBuckets ⟨h.srcIp, a⟩)) : ¬ Overtakes c s val h a b := by
  have hrate := refillRate_antitone hppm hab hord
  have hlt := refillRate_lt val a
  have hfirst : Poorer (synSite c s val h b) (synSite c s val h a) :=
    atSite_poorer c.synStored hrate hlt (by rw [hsame]; exact poorer_refl _) hfits.atSyn
  have hsecond : Poorer (admitSite c s val h b) (admitSite c s val h a) := by
    refine atSite_poorer c.admitStored hrate hlt ?_ (fits_second hfits)
    split
    · exact drain_poorer hfirst
    · rw [hsame]
      exact poorer_refl _
  rintro (⟨-, ha, hpb, -⟩ | ⟨-, -, -, ha, hpb, -⟩)
  · rw [pays_of_poorer hfirst hpb] at ha
    exact absurd ha (by simp)
  · rw [pays_of_poorer hsecond hpb] at ha
    exact absurd ha (by simp)

def overloadPolicy (mu : UInt32) : PolicyValue :=
  { calmPolicy with overloadPpm := 1000000, shedPpm := 1000000, muTokensPerSec := mu, escalateFlags := 3 }

theorem atSite_new (rate now : UInt64) : atSite rate now true none = some ⟨rate, now⟩ := by
  have hstill : refill rate now ⟨rate, now⟩ = ⟨rate, now⟩ := refill_still rate now ⟨rate, now⟩ (by simp)
  rw [atSite, if_pos rfl, hstill]

theorem atSite_now (rate now tokens : UInt64) (stored : Bool) :
    atSite rate now stored (some ⟨tokens, now⟩) = some ⟨tokens, now⟩ := by
  rw [atSite, refill_still rate now ⟨tokens, now⟩ (by simp)]

/-- A SYN of a new source is charged twice, and passes by the second charge where its bucket
    starts with two tokens. -/
theorem new_source_pays_twice (mu : UInt32) (t : UInt8) (hdr : Headers) (hsyn : hdr.isSyn = true) :
    Escapes (tcpCtx 2) (sharedWith (overloadPolicy mu)) (overloadPolicy mu) hdr t ∧
      (pays (admitSite (tcpCtx 2) (sharedWith (overloadPolicy mu)) (overloadPolicy mu) hdr t) = true ↔
        2 ≤ (refillRate (overloadPolicy mu) t).toNat) := by
  have hpos : 1 ≤ (refillRate (overloadPolicy mu) t).toNat := by
    rw [refillRate_toNat]
    exact Nat.le_max_left _ _
  have hesc : escalated (overloadPolicy mu) hdr = true := by
    rw [escalated, hsyn, Bool.and_true]
    show decide ((3 : UInt32) &&& 2 ≠ 0) = true
    decide
  have hsite : synSite (tcpCtx 2) (sharedWith (overloadPolicy mu)) (overloadPolicy mu) hdr t =
      some ⟨refillRate (overloadPolicy mu) t, 10⟩ := atSite_new _ 10
  refine ⟨fun _ => ?_, ?_⟩
  · rw [hsite]
    simpa [pays] using hpos
  · have hdrain := drain_tokens ⟨refillRate (overloadPolicy mu) t, 10⟩ 1
    have hlater : admitSite (tcpCtx 2) (sharedWith (overloadPolicy mu)) (overloadPolicy mu) hdr t =
        some (drain ⟨refillRate (overloadPolicy mu) t, 10⟩ 1) := by
      rw [admitSite, if_pos hesc, hsite]
      exact atSite_now _ 10 _ true
    rw [hlater, pays, Option.all_some, decide_eq_true_eq, hdrain]
    show 1 ≤ (refillRate (overloadPolicy mu) t).toNat - 1 ↔ _
    omega

/-- Where two bytes do not refill in order, some rate gives the smaller one token a second
    and the other two. -/
theorem exists_scarce_rate {a b : UInt8} (hab : a < b) (hord : ¬ RefillsInOrder a b) :
    ∃ mu, (refillRate (overloadPolicy mu) a).toNat = 1 ∧ 2 ≤ (refillRate (overloadPolicy mu) b).toNat := by
  refine ⟨if a = 2 then 10 else 2, ?_⟩
  have hmu : (tokenMu (overloadPolicy (if a = 2 then 10 else 2))).toNat = if a = 2 then 10 else 2 := by
    split <;> rfl
  rw [refillRate_toNat, refillRate_toNat, hmu, tierPpm_default rfl, tierPpm_default rfl]
  simp only [RefillsInOrder, UInt8.lt_iff_toNat_lt, UInt8.le_iff_toNat_le, ← UInt8.toNat_inj,
    UInt8.reduceToNat] at hab hord ⊢
  constructor
  · split_ifs <;> omega
  · split_ifs <;> omega

theorem scarce_rate_overtakes {mu : UInt32} {a b : UInt8} (ha : a ≠ tierCritical)
    (hra : (refillRate (overloadPolicy mu) a).toNat = 1) (hrb : 2 ≤ (refillRate (overloadPolicy mu) b).toNat)
    (hdr : Headers) (hsyn : hdr.isSyn = true) :
    Overtakes (tcpCtx 2) (sharedWith (overloadPolicy mu)) (overloadPolicy mu) hdr a b := by
  obtain ⟨hea, hpa⟩ := new_source_pays_twice mu a hdr hsyn
  obtain ⟨heb, hpb⟩ := new_source_pays_twice mu b hdr hsyn
  have hv3 : policyVersionV3 ≤ (3 : UInt64) := by decide
  refine Or.inr ⟨hv3, hea, heb, ?_, hpb.mpr hrb, ?_, fun hd => ha hd.1⟩
  · rw [← Bool.not_eq_true, hpa]
    omega
  · have hdrop : tierDropPpm (overloadPolicy mu) a = if a = tierStandard then 1000000 / 4 else 1000000 := by
      have hnone : ¬ ((3 : UInt64) < policyVersionV2 ∨ (1000000 : UInt32) = 0) := by decide
      simp only [tierDropPpm, overloadPolicy, calmPolicy, hnone, ha, if_false]
    have hrnd : (tcpCtx 2).rnd % ppmScale = 5 := by decide
    rw [Sheds, hdrop, hrnd]
    split <;> decide

end EliteTelemetry.Xdp
