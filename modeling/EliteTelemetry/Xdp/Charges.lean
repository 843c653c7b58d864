/-
  EliteTelemetry.Xdp.Charges — what one packet costs its source.

  On the v3 path a packet is charged at two sites: the SYN escalation, for a SYN when the
  policy says so, and the admission itself. The second does not know of the first, so a SYN
  under `ELITE_ESC_SYN_PROXY` pays twice (`settle_found`). A packet takes one token, and a
  source of SYNs is admitted as often as a source of data, exactly where the two sites do
  not both charge (`one_packet_one_token_iff`).

  Times here are such that the bucket is not refilled; `Xdp.Tokens` has the refills.
-/

import EliteTelemetry.Xdp.Tokens

namespace EliteTelemetry.Xdp

open EliteTelemetry.Lib.Machine

/-! ## The two sites -/

/-- The charges of a parsed packet on the v3 path: whether the last one made was paid, and
    the buckets after them. -/
def settle (c : Ctx) (s : Shared) (val : PolicyValue) (h : Headers) : Bool × Buckets :=
  if blocked s val h then (false, s.srcBuckets)
  else if (synEscalate c s val h).1 then
    tokenConsume val (synEscalate c s val h).2 h.srcIp (classify s h) 1 c.admitNs c.admitStored
  else (false, (synEscalate c s val h).2)

def tokenPass (c : Ctx) (s : Shared) : Bool :=
  match s.policy, parseIpv4Tcp c.frame with
  | some val, .ok h => val.actuate ≠ 0 && policyVersionV3 ≤ val.policyVersion && (settle c s val h).1
  | _, _ => false

@[simp] theorem maybeEmitLambda_shared (c : Ctx) (m : Maps) (syn pass drop : UInt32) :
    (maybeEmitLambda c m syn pass drop).shared = m.shared := by
  simp only [maybeEmitLambda]
  repeat' split
  all_goals rfl

@[simp] theorem leave_shared (c : Ctx) (m : Maps) (b : Bump) (syn pass drop : UInt32) (v : Verdict) :
    (leave c m b syn pass drop v).2.shared = m.shared := by
  simp [leave]

@[simp] theorem leave_verdict (c : Ctx) (m : Maps) (b : Bump) (syn pass drop : UInt32) (v : Verdict) :
    (leave c m b syn pass drop v).1 = v := rfl

theorem admitV3_shared (c : Ctx) (m : Maps) (val : PolicyValue) (h : Headers) (tier : UInt8) (syn : UInt32) :
    (admitV3 c m val h tier syn).2.shared =
      { m.shared with
        srcBuckets := (tokenConsume val m.shared.srcBuckets h.srcIp tier 1 c.admitNs c.admitStored).2 } := by
  simp only [admitV3]
  repeat' split
  all_goals simp only [leave_shared, Maps.withBuckets]

structure OnV3 (c : Ctx) (s : Shared) (val : PolicyValue) (h : Headers) : Prop where
  policy : s.policy = some val
  actuate : val.actuate ≠ 0
  version : policyVersionV3 ≤ val.policyVersion
  parsed : parseIpv4Tcp c.frame = .ok h

variable {c : Ctx} {m : Maps} {val : PolicyValue} {h : Headers}

theorem OnV3.mitigator (on : OnV3 c m.shared val h) : xdpMitigator c m = admitParsed c m val h := by
  simp [xdpMitigator, on.policy, on.actuate, on.parsed]

theorem OnV3.tokenPass (on : OnV3 c m.shared val h) :
    tokenPass c m.shared = (settle c m.shared val h).1 := by
  simp [EliteTelemetry.Xdp.tokenPass, on.policy, on.actuate, on.version, on.parsed]

/-- On the v3 path the program changes nothing but the buckets, and those as `settle` does. -/
theorem xdpMitigator_settles (on : OnV3 c m.shared val h) :
    (xdpMitigator c m).2.shared = { m.shared with srcBuckets := (settle c m.shared val h).2 } := by
  rw [on.mitigator]
  simp only [admitParsed, settle]
  by_cases hblk : blocked m.shared val h = true
  · simp [hblk]
  · by_cases hesc : (synEscalate c m.shared val h).1 = true
    · simp only [hblk, hesc, on.version, Bool.false_eq_true, not_true_eq_false, if_false, if_true, admitV3_shared]
      rfl
    · simp [hblk, hesc, Maps.withBuckets]

/-! ## Without a refill -/

/-- Neither reading of the clock refills a bucket stamped `last`. -/
def Still (last : UInt64) (c : Ctx) : Prop := c.synNs - last ≤ nsPerSec ∧ c.admitNs - last ≤ nsPerSec

instance (last : UInt64) (c : Ctx) : Decidable (Still last c) := inferInstanceAs (Decidable (_ ∧ _))

theorem refill_still (rate now : UInt64) (b : TokenBucket) (h : now - b.lastRefillNs ≤ nsPerSec) :
    refill rate now b = b := by
  simp only [refill]
  exact if_neg (UInt64.not_lt.mpr h)

def charges (val : PolicyValue) (syn : Bool) : Nat := if hasFlag val escSynProxy && syn then 2 else 1

def drain (b : TokenBucket) (n : Nat) : TokenBucket := { b with tokens := .ofNat (b.tokens.toNat - n) }

theorem drain_tokens (b : TokenBucket) (n : Nat) : (drain b n).tokens.toNat = b.tokens.toNat - n := by
  have := b.tokens.toNat_lt
  simp only [drain, UInt64.toNat_ofNat']
  omega

theorem drain_drain (b : TokenBucket) (n k : Nat) : drain (drain b n) k = drain b (n + k) := by
  have h := drain_tokens b n
  simp only [drain] at h ⊢
  rw [h, Nat.sub_sub]

theorem charge_drains (b : TokenBucket) : charge b 1 = (decide (1 ≤ b.tokens.toNat), drain b 1) := by
  have hlt := b.tokens.toNat_lt
  rcases charge_one b with ⟨h, hpos, hsub⟩ | ⟨h, hzero⟩
  · rw [h]
    refine Prod.ext (by simpa using hpos) ?_
    simp only [drain, TokenBucket.mk.injEq, and_true]
    rw [← UInt64.toNat_inj, hsub, UInt64.toNat_ofNat']
    omega
  · rw [h]
    refine Prod.ext (by simp [hzero]) ?_
    obtain ⟨tokens, last⟩ := b
    have : tokens = 0 := UInt64.toNat_inj.mp hzero
    subst this
    rfl

variable {b : TokenBucket}

theorem tokenConsume_still (val : PolicyValue) (bs : Buckets) (k : SrcKey) (now : UInt64) (stored : Bool)
    (hb : bs k = some b) (hs : now - b.lastRefillNs ≤ nsPerSec) :
    tokenConsume val bs k.srcIp k.tier 1 now stored = (decide (1 ≤ b.tokens.toNat), setBucket bs k (drain b 1)) := by
  rw [tokenConsume_found val bs k now stored hb, pay, refill_still _ _ _ hs, charge_drains]

/-- An unblocked packet takes a token at every site that charges it, as far as they go, and
    is admitted when they all were paid. -/
theorem settle_found (c : Ctx) (s : Shared) (val : PolicyValue) (h : Headers)
    (hb : s.srcBuckets ⟨h.srcIp, classify s h⟩ = some b) (hs : Still b.lastRefillNs c)
    (hblk : blocked s val h = false) :
    settle c s val h = (decide (charges val h.isSyn ≤ b.tokens.toNat),
      setBucket s.srcBuckets ⟨h.srcIp, classify s h⟩ (drain b (charges val h.isSyn))) := by
  by_cases hesc : (hasFlag val escSynProxy && h.isSyn) = true
  · have hsyn := tokenConsume_still val s.srcBuckets ⟨h.srcIp, classify s h⟩ c.synNs c.synStored hb hs.1
    simp only [settle, hblk, synEscalate, hesc, hsyn, charges, if_true, Bool.false_eq_true, if_false]
    by_cases hpos : 1 ≤ b.tokens.toNat
    · -- the second charge finds what the first left
      have hadm := tokenConsume_still val (setBucket s.srcBuckets ⟨h.srcIp, classify s h⟩ (drain b 1))
        ⟨h.srcIp, classify s h⟩ c.admitNs c.admitStored (setBucket_same _ _ _) hs.2
      simp only [hpos, decide_true, if_true]
      rw [hadm, setBucket_setBucket, drain_drain, drain_tokens]
      simp only [Prod.mk.injEq, decide_eq_decide, and_true]
      omega
    · have hzero : b.tokens.toNat = 0 := by omega
      simp [hzero, drain]
  · have hadm := tokenConsume_still val s.srcBuckets ⟨h.srcIp, classify s h⟩ c.admitNs c.admitStored hb hs.2
    simp only [settle, hblk, synEscalate, hesc, charges, if_true, if_false, Bool.false_eq_true]
    exact hadm

/-! ## One packet -/

def tokensAt (s : Shared) (k : SrcKey) : Nat := ((s.srcBuckets k).map (·.tokens.toNat)).getD 0

theorem tokensAt_some {s : Shared} {k : SrcKey} (hb : s.srcBuckets k = some b) : tokensAt s k = b.tokens.toNat := by
  simp [tokensAt, hb]

/-- The packet takes at most one token of `k`, and one if that is what passes it. -/
def OneToken (c : Ctx) (m : Maps) (k : SrcKey) : Prop :=
  tokensAt m.shared k ≤ tokensAt (xdpMitigator c m).2.shared k + 1 ∧
    (tokenPass c m.shared = true → tokensAt m.shared k = tokensAt (xdpMitigator c m).2.shared k + 1)

theorem oneToken_iff (on : OnV3 c m.shared val h) (hb : m.shared.srcBuckets ⟨h.srcIp, classify m.shared h⟩ = some b)
    (hs : Still b.lastRefillNs c) :
    OneToken c m ⟨h.srcIp, classify m.shared h⟩ ↔
      ¬ (blocked m.shared val h = false ∧ (hasFlag val escSynProxy && h.isSyn) = true ∧ 2 ≤ b.tokens.toNat) := by
  simp only [OneToken, xdpMitigator_settles on, on.tokenPass, tokensAt_some hb]
  by_cases hblk : blocked m.shared val h = true
  · have hset : settle c m.shared val h = (false, m.shared.srcBuckets) := by simp [settle, hblk]
    rw [hset]
    simp [hblk, tokensAt, hb]
  · rw [Bool.not_eq_true] at hblk
    rw [settle_found c m.shared val h hb hs hblk]
    simp only [tokensAt, setBucket_same, Option.map_some, Option.getD_some, drain_tokens, charges]
    split
    · rename_i hesc
      simp only [hblk, hesc, true_and, decide_eq_true_eq]
      omega
    · rename_i hesc
      simp only [hesc, decide_eq_true_eq, Bool.false_eq_true, false_and, and_false, not_false_eq_true, iff_true]
      omega

/-! ## A source that keeps sending -/

/-- Serving a packet: whether the bucket admits it, and the maps after it. -/
def serve (m : Maps) (c : Ctx) : Bool × Maps := (tokenPass c m.shared, (xdpMitigator c m).2)

/-- A packet of the source of `k`, SYN or not, unblocked, before the next refill. -/
def Sends (s : Shared) (val : PolicyValue) (k : SrcKey) (syn : Bool) (last : UInt64) (c : Ctx) : Prop :=
  ∃ h, parseIpv4Tcp c.frame = .ok h ∧ k = ⟨h.srcIp, classify s h⟩ ∧ h.isSyn = syn ∧ blocked s val h = false ∧
    Still last c

theorem serve_still {k : SrcKey} {syn : Bool} (hp : m.shared.policy = some val) (ha : val.actuate ≠ 0)
    (hv : policyVersionV3 ≤ val.policyVersion) (hb : m.shared.srcBuckets k = some b)
    (hc : Sends m.shared val k syn b.lastRefillNs c) :
    (serve m c).1 = decide (charges val syn ≤ b.tokens.toNat) ∧
      (serve m c).2.shared =
        { m.shared with srcBuckets := setBucket m.shared.srcBuckets k (drain b (charges val syn)) } := by
  obtain ⟨h, hparse, rfl, rfl, hblk, hs⟩ := hc
  have on : OnV3 c m.shared val h := ⟨hp, ha, hv, hparse⟩
  have hset := settle_found c m.shared val h hb hs hblk
  refine ⟨?_, ?_⟩
  · show tokenPass c m.shared = _
    rw [on.tokenPass, hset]
  · show (xdpMitigator c m).2.shared = _
    rw [xdpMitigator_settles on, hset]

theorem admitted_step (n t k : Nat) (hn : n = 1 ∨ n = 2) :
    min k ((t - n) / n) + (if n ≤ t then 1 else 0) = min (k + 1) (t / n) := by
  rcases hn with rfl | rfl <;> split <;> omega

/-- Before the next refill, a source is admitted as often as its tokens cover its charges. -/
theorem serve_count {k : SrcKey} {syn : Bool} (cs : List Ctx) {m : Maps} (hp : m.shared.policy = some val)
    (ha : val.actuate ≠ 0) (hv : policyVersionV3 ≤ val.policyVersion) (hb : m.shared.srcBuckets k = some b)
    (hcs : ∀ c ∈ cs, Sends m.shared val k syn b.lastRefillNs c) :
    (exec serve m cs).1.count true = min cs.length (b.tokens.toNat / charges val syn) := by
  induction cs generalizing m b with
  | nil => simp
  | cons c cs ih =>
    obtain ⟨hans, hsh⟩ := serve_still hp ha hv hb (hcs c List.mem_cons_self)
    have hrest := ih (m := (serve m c).2) (b := drain b (charges val syn)) (by rw [hsh]; exact hp)
      (by rw [hsh]; exact setBucket_same _ _ _)
      (by
        intro c' hc'
        rw [hsh]
        exact hcs c' (List.mem_cons_of_mem _ hc'))
    have hch : charges val syn = 1 ∨ charges val syn = 2 := by
      unfold charges
      split
      · exact Or.inr rfl
      · exact Or.inl rfl
    rw [exec_cons, List.count_cons, hrest, hans, drain_tokens, List.length_cons]
    simp only [beq_iff_eq, decide_eq_true_eq]
    exact admitted_step _ _ _ hch

/-- Under a v3 policy, while no refill is due. A packet takes at most one token, and one
    when that passes it, exactly unless it is an unblocked SYN under the SYN escalation
    whose bucket holds two or more. And as many SYNs are admitted as data packets, from as
    many sent and as many tokens, exactly when there is no SYN escalation, or too few were
    sent to use half the tokens, or there were none. -/
theorem one_packet_one_token_iff (m : Maps) (val : PolicyValue) (hp : m.shared.policy = some val)
    (ha : val.actuate ≠ 0) (hv : policyVersionV3 ≤ val.policyVersion) :
    (∀ (c : Ctx) (h : Headers) (b : TokenBucket), parseIpv4Tcp c.frame = .ok h →
      m.shared.srcBuckets ⟨h.srcIp, classify m.shared h⟩ = some b → Still b.lastRefillNs c →
      (OneToken c m ⟨h.srcIp, classify m.shared h⟩ ↔
        ¬ (blocked m.shared val h = false ∧ (hasFlag val escSynProxy && h.isSyn) = true ∧ 2 ≤ b.tokens.toNat))) ∧
    (∀ (ks kd : SrcKey) (bs bd : TokenBucket) (syns datas : List Ctx),
      m.shared.srcBuckets ks = some bs → m.shared.srcBuckets kd = some bd → bs.tokens = bd.tokens →
      syns.length = datas.length → (∀ c ∈ syns, Sends m.shared val ks true bs.lastRefillNs c) →
      (∀ c ∈ datas, Sends m.shared val kd false bd.lastRefillNs c) →
      ((exec serve m syns).1.count true = (exec serve m datas).1.count true ↔
        (hasFlag val escSynProxy = true → syns.length ≤ bs.tokens.toNat / 2 ∨ bs.tokens.toNat = 0))) := by
  refine ⟨fun c h b hparse hb hs => oneToken_iff ⟨hp, ha, hv, hparse⟩ hb hs, ?_⟩
  intro ks kd bs bd syns datas hbs hbd htok hlen hsyns hdatas
  rw [serve_count syns hp ha hv hbs hsyns, serve_count datas hp ha hv hbd hdatas, ← hlen, ← htok]
  cases hflag : hasFlag val escSynProxy with
  | false => simp [charges, hflag]
  | true =>
    simp only [charges, hflag, Bool.and_true, Bool.and_false, if_true, Bool.false_eq_true, if_false, true_implies,
      Nat.div_one]
    omega

/-! ## A source under the SYN escalation -/

def tcpFrame (flags : UInt8) : List UInt8 :=
  List.replicate 12 0 ++ [0x08, 0x00, 0x45] ++ List.replicate 8 0 ++ [6, 0, 0, 10, 0, 0, 1, 10, 0, 0, 2] ++
    [0x9c, 0x40, 0x01, 0xbb] ++ List.replicate 8 0 ++ [0x50, flags] ++ List.replicate 6 0

def tcpCtx (flags : UInt8) : Ctx := ⟨tcpFrame flags, 10, 10, 10, true, true, 5, true⟩

def tcpKey : SrcKey := ⟨0x0100000a, tierStandard⟩

def synProxyPolicy : PolicyValue := { calmPolicy with escalateFlags := escSynProxy }

def mapsHolding (val : PolicyValue) (n : UInt64) : Maps :=
  ⟨{ sharedWith val with srcBuckets := setBucket (fun _ => none) tcpKey ⟨n, 10⟩ }, PerCpu.zero, []⟩

theorem tcp_sends (val : PolicyValue) (n : UInt64) (flags : UInt8) (syn : Bool)
    (hparse : parseIpv4Tcp (tcpFrame flags) = .ok ⟨0x0100000a, 443, if syn then tcpFlagSyn else 0⟩) :
    Sends (mapsHolding val n).shared val tcpKey syn 10 (tcpCtx flags) := by
  have hnow : (10 : UInt64) - 10 ≤ nsPerSec := by decide
  refine ⟨_, hparse, rfl, ?_, ?_, hnow, hnow⟩
  · cases syn <;> rfl
  · simp [blocked, mapsHolding, sharedWith]

/-- One token left: the SYN takes it. Four tokens: two SYNs are admitted as two data
    packets are. -/
theorem one_packet_one_token_scarce :
    OneToken (tcpCtx 2) (mapsHolding synProxyPolicy 1) tcpKey ∧
      (exec serve (mapsHolding synProxyPolicy 4) [tcpCtx 2, tcpCtx 2]).1.count true =
        (exec serve (mapsHolding synProxyPolicy 4) [tcpCtx 16, tcpCtx 16]).1.count true := by
  have hsyn := tcp_sends synProxyPolicy 4 2 true (by rfl)
  have hdata := tcp_sends synProxyPolicy 4 16 false (by rfl)
  have hone := (one_packet_one_token_iff (mapsHolding synProxyPolicy 1) synProxyPolicy rfl (by decide) (by decide)).1
    (tcpCtx 2) ⟨0x0100000a, 443, 2⟩ ⟨1, 10⟩ (by rfl) (by rfl) (by decide)
  have htwo := (one_packet_one_token_iff (mapsHolding synProxyPolicy 4) synProxyPolicy rfl (by decide) (by decide)).2
    tcpKey tcpKey ⟨4, 10⟩ ⟨4, 10⟩ [tcpCtx 2, tcpCtx 2] [tcpCtx 16, tcpCtx 16] (by rfl) (by rfl) rfl rfl
    (by simpa using hsyn) (by simpa using hdata)
  exact ⟨hone.mpr fun h => absurd h.2.2 (by decide), htwo.mpr fun _ => Or.inl (by decide)⟩

/-- Two tokens under the SYN escalation: one SYN takes both, and of two SYNs one is
    admitted where two data packets would be. -/
theorem syn_pays_twice :
    ¬ OneToken (tcpCtx 2) (mapsHolding synProxyPolicy 2) tcpKey ∧
      (exec serve (mapsHolding synProxyPolicy 2) [tcpCtx 2, tcpCtx 2]).1.count true = 1 ∧
      (exec serve (mapsHolding synProxyPolicy 2) [tcpCtx 16, tcpCtx 16]).1.count true = 2 := by
  refine ⟨?_, by decide, by decide⟩
  unfold OneToken
  decide

end EliteTelemetry.Xdp
