/-
  EliteTelemetry.Xdp.LambdaRing — what a lambda event says about its batch.

  `maybe_emit_lambda` is called once per packet with that packet's own counts, and submits
  an event at every 1024th call with the counts of that call. A run that starts from a
  zeroed counter therefore submits one event per 1024 packets (`ring_length`), and the
  event of a batch carries the counts of the batch's last packet (`batch_event`).

  So it accounts for the batch exactly when the 1023 packets before the last had nothing
  to count: each redirected, none a SYN (`lambda_event_exact_iff`). `Redirects` says when
  a packet is redirected, from the maps and the packet alone.
-/

import EliteTelemetry.Xdp.Accounting

namespace EliteTelemetry.Xdp

open EliteTelemetry.Lib.Machine

/-! ## When a packet is redirected -/

def RedirectsLegacy (c : Ctx) (val : PolicyValue) : Prop :=
  (policyVersionV2 ≤ val.policyVersion ∧ 0 < val.shedPpm) ∧ ¬ c.rnd % ppmScale < val.shedPpm ∧ 0 < val.redirectIfindex

instance (c : Ctx) (val : PolicyValue) : Decidable (RedirectsLegacy c val) := inferInstanceAs (Decidable (_ ∧ _ ∧ _))

/-- The bucket refuses a critical packet, the draw sheds it, and a device is configured. -/
def RedirectsV3 (c : Ctx) (m : Shared) (val : PolicyValue) (h : Headers) (tier : UInt8) : Prop :=
  (tokenConsume val m.srcBuckets h.srcIp tier 1 c.admitNs c.admitStored).1 = false ∧
    (0 < tierDropPpm val tier ∧ c.rnd % ppmScale < tierDropPpm val tier) ∧ tier = tierCritical ∧
    (0 < m.devmap.getD 0 ∨ 0 < val.redirectIfindex)

def RedirectsParsed (c : Ctx) (m : Shared) (val : PolicyValue) (h : Headers) : Prop :=
  blocked m val h = false ∧ (synEscalate c m val h).1 = true ∧
    if policyVersionV3 ≤ val.policyVersion then
      RedirectsV3 c { m with srcBuckets := (synEscalate c m val h).2 } val h (classify m h)
    else RedirectsLegacy c val

def Redirects (c : Ctx) (m : Shared) : Prop :=
  ∃ val, m.policy = some val ∧ val.actuate ≠ 0 ∧
    match parseIpv4Tcp c.frame with
    | .ok h => RedirectsParsed c m val h
    | .error _ => RedirectsLegacy c val

theorem admitLegacy_redirect (c : Ctx) (m : Maps) (val : PolicyValue) (syn : UInt32) :
    (admitLegacy c m val syn).1.isRedirect = true ↔ RedirectsLegacy c val := by
  unfold admitLegacy RedirectsLegacy
  by_cases h1 : policyVersionV2 ≤ val.policyVersion ∧ 0 < val.shedPpm
  · rw [if_pos h1]
    by_cases h2 : c.rnd % ppmScale < val.shedPpm
    · simp [h2, leave, Verdict.isRedirect]
    · rw [if_neg h2]
      split <;> simp_all [leave, Verdict.isRedirect]
  · rw [if_neg h1]
    split <;> simp [h1, leave, Verdict.isRedirect]

theorem admitV3_redirect (c : Ctx) (m : Maps) (val : PolicyValue) (h : Headers) (tier : UInt8) (syn : UInt32) :
    (admitV3 c m val h tier syn).1.isRedirect = true ↔ RedirectsV3 c m.shared val h tier := by
  simp only [admitV3, RedirectsV3]
  by_cases h1 : (tokenConsume val m.shared.srcBuckets h.srcIp tier 1 c.admitNs c.admitStored).1 = true
  · simp [h1, leave, Verdict.isRedirect]
  · rw [if_neg h1]
    by_cases h2 : 0 < tierDropPpm val tier ∧ c.rnd % ppmScale < tierDropPpm val tier
    · rw [if_pos h2]
      have h1' : (tokenConsume val m.shared.srcBuckets h.srcIp tier 1 c.admitNs c.admitStored).1 = false := by
        simpa using h1
      by_cases h3 : tier = tierCritical
      · subst h3
        by_cases h4 : 0 < m.shared.devmap.getD 0
        · simp [h1', h2, h4, leave, Verdict.isRedirect, Maps.withBuckets]
        · by_cases h5 : 0 < val.redirectIfindex
          · simp [h1', h2, h4, h5, leave, Verdict.isRedirect, Maps.withBuckets]
          · simp [h4, h5, leave, Verdict.isRedirect, Maps.withBuckets]
      · simp [h3, leave, Verdict.isRedirect]
    · simp [h2, leave, Verdict.isRedirect]

theorem admitParsed_redirect (c : Ctx) (m : Maps) (val : PolicyValue) (h : Headers) :
    (admitParsed c m val h).1.isRedirect = true ↔ RedirectsParsed c m.shared val h := by
  simp only [admitParsed, RedirectsParsed]
  by_cases h1 : blocked m.shared val h = true
  · simp [h1, leave, Verdict.isRedirect]
  · by_cases h2 : (synEscalate c m.shared val h).1 = true
    · have h1' : blocked m.shared val h = false := by simpa using h1
      by_cases h3 : policyVersionV3 ≤ val.policyVersion
      · simp only [h1', h2, h3, Bool.false_eq_true, not_true_eq_false, if_false, if_true, true_and]
        exact admitV3_redirect c _ val h _ _
      · simp only [h1', h2, h3, Bool.false_eq_true, not_true_eq_false, if_false, true_and]
        exact admitLegacy_redirect c _ val _
    · simp [h1, h2, leave, Verdict.isRedirect]

theorem xdpMitigator_redirect (c : Ctx) (m : Maps) :
    (xdpMitigator c m).1.isRedirect = true ↔ Redirects c m.shared := by
  simp only [xdpMitigator, Redirects]
  cases hp : m.shared.policy with
  | none => simp [Verdict.isRedirect]
  | some val =>
    by_cases ha : val.actuate = 0
    · simp [ha, Verdict.isRedirect]
    · cases hf : parseIpv4Tcp c.frame with
      | ok h => simp [ha, admitParsed_redirect]
      | error e => simp [ha, admitLegacy_redirect]

/-! ## The ring over a run -/

/-- An actuating policy, and room in the ring. -/
def Counts (m : Maps) (a : Arrival) : Prop := Acts m a ∧ a.ctx.ringFree = true

def batched (m : Maps) : Nat := m.cpu.pktCounter.toNat % 1024

theorem ends_batch_iff (n : UInt64) : (n + 1) % 1024 = 0 ↔ n.toNat % 1024 = 1023 := by
  rw [← UInt64.toNat_inj, UInt64.toNat_mod, UInt64.toNat_add]
  simp only [UInt64.reduceToNat]
  omega

theorem handle_batched (m : Maps) (a : Arrival) (ha : Acts m a) :
    batched (handle m a).2 = (batched m + 1) % 1024 := by
  simp only [batched, handle_cpu m a ha, UInt64.toNat_add, UInt64.reduceToNat]
  omega

/-- A packet submits an event when it ends a batch, with its own counts. -/
theorem handle_ring (m : Maps) (a : Arrival) (hc : Counts m a) :
    (handle m a).2.lambdaRing =
      if batched m = 1023 then
        m.lambdaRing ++ [eventOf a.ctx (synBatch (handle m a).1.syn) (handle m a).1.verdict]
      else m.lambdaRing := by
  obtain ⟨ha, hr⟩ := hc
  obtain ⟨bs, v, h⟩ := xdpMitigator_accounts a.ctx { m with shared := a.env m.shared } ha
  simp only [handle, h, account_ring _ _ _ _ hr, account_verdict, Maps.withBuckets, ends_batch_iff, batched]

theorem ring_length (m : Maps) (as : List Arrival) (hc : along handle Counts m as) :
    (exec handle m as).2.lambdaRing.length = m.lambdaRing.length + (batched m + as.length) / 1024 ∧
      batched (exec handle m as).2 = (batched m + as.length) % 1024 := by
  have hlt : ∀ m : Maps, batched m < 1024 := fun m => Nat.mod_lt _ (by decide)
  induction as generalizing m with
  | nil =>
    have := hlt m
    simp only [exec_nil, List.length_nil]
    omega
  | cons a as ih =>
    obtain ⟨h1, h2⟩ := ih (handle m a).2 hc.2
    simp only [exec_cons, List.length_cons]
    rw [h1, h2, handle_batched m a hc.1.1, handle_ring m a hc.1]
    have := hlt m
    split
    · simp only [List.length_append, List.length_singleton]
      omega
    · omega

theorem ring_within_batch (m : Maps) (as : List Arrival) (hc : along handle Counts m as)
    (hl : batched m + as.length < 1024) : (exec handle m as).2.lambdaRing = m.lambdaRing := by
  induction as generalizing m with
  | nil => rfl
  | cons a as ih =>
    simp only [List.length_cons] at hl
    have hb := handle_batched m a hc.1.1
    rw [exec_cons, ih (handle m a).2 hc.2 (by omega), handle_ring m a hc.1, if_neg (by omega)]

/-- A full batch submits one event, with the counts of its last packet. -/
theorem batch_event (m : Maps) (as : List Arrival) (a : Arrival) (hc : along handle Counts m (as ++ [a]))
    (hm : batched m = 0) (hl : as.length = 1023) :
    (exec handle m (as ++ [a])).2.lambdaRing = m.lambdaRing ++
      [eventOf a.ctx (synBatch (handle (exec handle m as).2 a).1.syn) (handle (exec handle m as).2 a).1.verdict] := by
  rw [along_append] at hc
  have hb := (ring_length m as hc.1).2
  rw [exec_append]
  simp only [exec_cons, exec_nil]
  rw [handle_ring _ a hc.2.1, if_pos (by omega), ring_within_batch m as hc.1 (by omega)]

/-! ## When an event accounts for its batch -/

def Exact (ev : LambdaEvent) (hs : List Handled) : Prop :=
  ev.passCount.toNat = hs.countP (·.verdict == .pass) ∧ ev.dropCount.toNat = hs.countP (·.verdict == .drop) ∧
    ev.synCount.toNat = hs.countP (·.syn)

def Handled.Uncounted (h : Handled) : Prop := h.verdict.isRedirect = true ∧ h.syn = false

theorem uncounted_iff (h : Handled) :
    h.Uncounted ↔ ¬ (h.verdict == .pass) = true ∧ ¬ (h.verdict == .drop) = true ∧ ¬ h.syn = true := by
  obtain ⟨v, b⟩ := h
  cases v <;> cases b <;> simp [Handled.Uncounted, Verdict.isRedirect]

theorem passes_toNat (v : Verdict) : v.passes.toNat = if (v == .pass) = true then 1 else 0 := by
  cases v <;> rfl

theorem drops_toNat (v : Verdict) : v.drops.toNat = if (v == .drop) = true then 1 else 0 := by
  cases v <;> rfl

theorem synBatch_toNat (b : Bool) : (synBatch b).toNat = if b = true then 1 else 0 := by
  cases b <;> rfl

/-- The last packet's own counts are the batch's when the packets before it had none. -/
theorem exact_last_iff (c : Ctx) (hs : List Handled) (h : Handled) :
    Exact (eventOf c (synBatch h.syn) h.verdict) (hs ++ [h]) ↔ ∀ x ∈ hs, x.Uncounted := by
  simp only [Exact, eventOf, passes_toNat, drops_toNat, synBatch_toNat, List.countP_append, List.countP_singleton,
    uncounted_iff, Nat.right_eq_add, List.countP_eq_zero]
  constructor
  · rintro ⟨h1, h2, h3⟩ x hx
    exact ⟨h1 x hx, h2 x hx, h3 x hx⟩
  · intro hall
    exact ⟨fun x hx => (hall x hx).1, fun x hx => (hall x hx).2.1, fun x hx => (hall x hx).2.2⟩

/-- The packet is redirected and is not a SYN, by its maps and its bytes. -/
def Diverted (m : Maps) (a : Arrival) : Prop :=
  Redirects a.ctx (a.env m.shared) ∧ isSynFrame a.ctx.frame = false

theorem uncounted_iff_diverted (m : Maps) (a : Arrival) : (handle m a).1.Uncounted ↔ Diverted m a := by
  unfold Handled.Uncounted Diverted
  exact and_congr_left' (xdpMitigator_redirect a.ctx { m with shared := a.env m.shared })

/-- In every run of one CPU from a zeroed counter, with an actuating policy and room in
    the ring, each full batch submits one event; its counts are the batch's exactly when
    every packet of the batch but the last is redirected and no SYN. -/
theorem lambda_event_exact_iff (m : Maps) (pre batch : List Arrival) (hz : m.cpu = PerCpu.zero)
    (hc : along handle Counts m (pre ++ batch)) (hpre : pre.length % 1024 = 0) (hb : batch.length = 1024) :
    (exec handle m pre).2.lambdaRing.length = m.lambdaRing.length + pre.length / 1024 ∧
    ∃ ev, (exec handle m (pre ++ batch)).2.lambdaRing = (exec handle m pre).2.lambdaRing ++ [ev] ∧
      ev.pktCount = 1024 ∧
      (Exact ev (exec handle (exec handle m pre).2 batch).1 ↔
        along handle Diverted (exec handle m pre).2 (batch.take 1023)) := by
  have hm0 : batched m = 0 := by rw [batched, hz]; rfl
  rw [along_append] at hc
  obtain ⟨hlen, hphase⟩ := ring_length m pre hc.1
  refine ⟨by rw [hlen, hm0, Nat.zero_add], ?_⟩
  generalize hn : (exec handle m pre).2 = n at *
  -- the batch is its first 1023 packets and the one that emits
  obtain ⟨as, a, rfl, has⟩ : ∃ as a, batch = as ++ [a] ∧ as.length = 1023 := by
    have hne : batch ≠ [] := by intro h; simp [h] at hb
    exact ⟨batch.dropLast, batch.getLast hne, (List.dropLast_concat_getLast hne).symm, by simp [hb]⟩
  have hev := batch_event n as a hc.2 (by omega) has
  rw [exec_append, hn]
  refine ⟨_, hev, rfl, ?_⟩
  rw [exec_append, ← has, List.take_left]
  simp only [exec_cons, exec_nil]
  rw [exact_last_iff]
  exact exec_forall_iff uncounted_iff_diverted n as

/-- Nothing of the packets but a fraction of one in a million is shed, the rest redirected. -/
def divertPolicy : PolicyValue := { calmPolicy with shedPpm := 1, redirectIfindex := 2 }

theorem arp_rejected : parseIpv4Tcp arpCtx.frame = .error .rejected := rfl

theorem arp_diverted_iff (val : PolicyValue) (m : Maps) :
    Diverted m (arpUnder val) ↔ val.actuate ≠ 0 ∧ RedirectsLegacy arpCtx val := by
  simp [Diverted, Redirects, isSynFrame, arp_rejected, arpUnder, sharedWith]

theorem arp_counts (val : PolicyValue) (ha : val.actuate ≠ 0) (n : Nat) (m : Maps) :
    along handle Counts m (List.replicate n (arpUnder val)) :=
  along_of_forall (fun _ e he => by
    rw [List.eq_of_mem_replicate he]
    exact ⟨⟨val, rfl, ha⟩, rfl⟩) m

/-- 1024 redirected ARP frames: the event, all zeros, is exact. -/
theorem lambda_event_exact_diverted :
    ∃ ev, (exec handle (mapsWith divertPolicy) (List.replicate 1024 (arpUnder divertPolicy))).2.lambdaRing = [ev] ∧
      Exact ev (exec handle (mapsWith divertPolicy) (List.replicate 1024 (arpUnder divertPolicy))).1 := by
  obtain ⟨-, ev, hr, -, hex⟩ := lambda_event_exact_iff (mapsWith divertPolicy) []
    (List.replicate 1024 (arpUnder divertPolicy)) rfl (arp_counts divertPolicy (by decide) 1024 _) rfl
    List.length_replicate
  refine ⟨ev, hr, hex.mpr ?_⟩
  refine along_of_forall (fun s e he => ?_) _
  rw [List.eq_of_mem_replicate (List.mem_of_mem_take he)]
  exact (arp_diverted_iff divertPolicy s).mpr (by decide)

/-- 1024 passed ARP frames on a quiet node: the event reports one packet passed. -/
theorem lambda_event_misses_its_batch :
    ∃ ev, (exec handle (mapsWith calmPolicy) (List.replicate 1024 (arpUnder calmPolicy))).2.lambdaRing = [ev] ∧
      ¬ Exact ev (exec handle (mapsWith calmPolicy) (List.replicate 1024 (arpUnder calmPolicy))).1 := by
  have hsplit : List.replicate 1024 (arpUnder calmPolicy) =
      List.replicate 1023 (arpUnder calmPolicy) ++ [arpUnder calmPolicy] := List.replicate_succ'
  have hc := arp_counts calmPolicy (by decide) 1024 (mapsWith calmPolicy)
  rw [hsplit] at hc ⊢
  refine ⟨_, batch_event (mapsWith calmPolicy) _ _ hc rfl List.length_replicate, ?_⟩
  rw [exec_append]
  simp only [exec_cons, exec_nil]
  rw [exact_last_iff, exec_forall_iff uncounted_iff_diverted]
  intro h
  have hfirst : Diverted (mapsWith calmPolicy) (arpUnder calmPolicy) := by
    rw [show (1023 : Nat) = 1022 + 1 from rfl, List.replicate_succ] at h
    exact h.1
  exact absurd ((arp_diverted_iff calmPolicy _).mp hfirst) (by decide)

end EliteTelemetry.Xdp
