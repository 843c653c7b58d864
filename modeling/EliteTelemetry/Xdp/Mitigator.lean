/-
  EliteTelemetry.Xdp.Mitigator — the XDP program (`bpf/xdp_mitigator.c`): token-bucket
  admission, tiers, redirect, and the lambda ring.

  A packet comes as its bytes from `data` to `data_end` and the answers of the helpers the
  program calls while handling it (`Ctx`). The clock is read at three places: by the
  SYN-escalation call of `token_consume`, by the v3 call, and when an event is emitted.
  `synStored` and `admitStored` say whether a bucket just inserted is found by the lookup
  after it; `ringFree` whether the ring has room.

  Every return of the program but the first goes through `xdp_bump_stat` and
  `maybe_emit_lambda`; `leave` is that pair, each return site with its own arguments.
-/

import EliteTelemetry.Xdp.PolicyMap

namespace EliteTelemetry.Xdp

structure Ctx where
  frame : List UInt8
  synNs : UInt64
  admitNs : UInt64
  emitNs : UInt64
  synStored : Bool
  admitStored : Bool
  rnd : UInt32
  ringFree : Bool
  deriving DecidableEq, Repr

/-- What the program returns. The redirect helpers' own answers are left to the kernel. -/
inductive Verdict where
  | pass
  | drop
  | redirectMap (key : UInt32)
  | redirect (ifindex : UInt32)
  deriving DecidableEq, Repr

/-! ## Counters and the ring -/

def xdpBumpStat (st : XdpStat) (pass drop redir : UInt64) : XdpStat :=
  ⟨st.pass + pass, st.drop + drop, st.redirect + redir⟩

def maybeEmitLambda (c : Ctx) (m : Maps) (syn pass drop : UInt32) : Maps :=
  let cnt := m.cpu.pktCounter + 1
  let m := { m with cpu := { m.cpu with pktCounter := cnt } }
  if cnt % lambdaRingBatch.toUInt64 ≠ 0 then m
  else if c.ringFree then
    { m with lambdaRing := m.lambdaRing ++ [⟨c.emitNs, lambdaRingBatch, syn, pass, drop⟩] }
  else m

abbrev Bump := UInt64 × UInt64 × UInt64

def leave (c : Ctx) (m : Maps) (b : Bump) (syn pass drop : UInt32) (v : Verdict) : Verdict × Maps :=
  let m := { m with cpu := { m.cpu with stats := xdpBumpStat m.cpu.stats b.1 b.2.1 b.2.2 } }
  (v, maybeEmitLambda c m syn pass drop)

/-! ## Tiers -/

def portTier (m : Shared) (dport : UInt16) : UInt8 := (m.portTier dport).getD tierStandard

def vipTier (m : Shared) (srcIp : UInt32) : UInt8 := (m.vipLpm srcIp).getD tierCount

def tierDropPpm (val : PolicyValue) (tier : UInt8) : UInt32 :=
  let shed := val.shedPpm
  if val.policyVersion < policyVersionV2 ∨ shed = 0 then 0
  else if tier = tierCritical then shed / 20
  else if tier = tierStandard then shed / 4
  else shed

/-! ## The token bucket -/

def tierPpm (val : PolicyValue) (tier : UInt8) : UInt32 :=
  let ppm := if h : tier.toNat < 4 then val.tierRefillPpm.get ⟨tier.toNat, h⟩ else ppmScale
  if ppm = 0 then ppmScale / 2 else ppm

def tokenMu (val : PolicyValue) : UInt32 := if val.muTokensPerSec = 0 then 10000 else val.muTokensPerSec

def refillRate (val : PolicyValue) (tier : UInt8) : UInt64 :=
  let rate := (tokenMu val).toUInt64 * (tierPpm val tier).toUInt64 / ppmScale.toUInt64
  if rate = 0 then 1 else rate

def nsPerSec : UInt64 := 1000000000

def refill (rate now : UInt64) (b : TokenBucket) : TokenBucket :=
  let elapsed := now - b.lastRefillNs
  if nsPerSec < elapsed then
    let tokens := b.tokens + elapsed / nsPerSec * rate
    ⟨if rate * 10 < tokens then rate * 10 else tokens, now⟩
  else b

def charge (b : TokenBucket) (cost : UInt64) : Bool × TokenBucket :=
  if cost ≤ b.tokens then (true, { b with tokens := b.tokens - cost }) else (false, b)

def setBucket (bs : Buckets) (k : SrcKey) (b : TokenBucket) : Buckets :=
  fun k' => if k' = k then some b else bs k'

/-- `token_consume`; `stored`: the bucket inserted for a new key is found again. -/
def tokenConsume (val : PolicyValue) (bs : Buckets) (srcIp : UInt32) (tier : UInt8) (cost now : UInt64)
    (stored : Bool) : Bool × Buckets :=
  let rate := refillRate val tier
  let k : SrcKey := ⟨srcIp, tier⟩
  match bs k with
  | some b =>
    let r := charge (refill rate now b) cost
    (r.1, setBucket bs k r.2)
  | none =>
    if stored then
      let r := charge (refill rate now ⟨rate, now⟩) cost
      (r.1, setBucket bs k r.2)
    else (true, bs)

/-! ## Parsing -/

inductive ParseErr where
  /-- The program's own `-1`. -/
  | rejected
  /-- A read at or past `data_end`. -/
  | outOfBounds (off : Nat)
  deriving DecidableEq, Repr

structure Headers where
  srcIp : UInt32
  dport : UInt16
  tcpFlags : UInt8
  deriving DecidableEq, Repr

def ethHdrLen : Nat := 14
def ipHdrLen : Nat := 20
def tcpHdrLen : Nat := 20
def ipprotoTcp : UInt8 := 6
def tcpFlagSyn : UInt8 := 2

def load8 (frame : List UInt8) (off : Nat) : Except ParseErr UInt8 :=
  match frame[off]? with
  | some b => .ok b
  | none => .error (.outOfBounds off)

def loadBe16 (frame : List UInt8) (off : Nat) : Except ParseErr UInt16 := do
  let hi ← load8 frame off
  let lo ← load8 frame (off + 1)
  return hi.toUInt16 <<< 8 ||| lo.toUInt16

def loadLe32 (frame : List UInt8) (off : Nat) : Except ParseErr UInt32 := do
  let b0 ← load8 frame off
  let b1 ← load8 frame (off + 1)
  let b2 ← load8 frame (off + 2)
  let b3 ← load8 frame (off + 3)
  return b0.toUInt32 ||| b1.toUInt32 <<< 8 ||| b2.toUInt32 <<< 16 ||| b3.toUInt32 <<< 24

def parseIpv4Tcp (frame : List UInt8) : Except ParseErr Headers := do
  if frame.length < ethHdrLen then throw .rejected
  if (← loadBe16 frame 12) ≠ 0x0800 then throw .rejected
  let iph := ethHdrLen
  if frame.length < iph + ipHdrLen then throw .rejected
  let vihl ← load8 frame iph
  if vihl >>> 4 ≠ 4 then throw .rejected
  if (← load8 frame (iph + 9)) ≠ ipprotoTcp then throw .rejected
  let ihl := (vihl &&& 0x0f).toNat * 4
  if ihl < ipHdrLen then throw .rejected
  let tcp := iph + ihl
  if frame.length < tcp + tcpHdrLen then throw .rejected
  let srcIp ← loadLe32 frame (iph + 12)
  let dport ← loadBe16 frame (tcp + 2)
  let flags ← load8 frame (tcp + 13)
  return ⟨srcIp, dport, if flags &&& tcpFlagSyn ≠ 0 then tcpFlagSyn else 0⟩

/-! ## The program -/

def hasFlag (val : PolicyValue) (flag : UInt32) : Bool := val.escalateFlags &&& flag ≠ 0

def Headers.isSyn (h : Headers) : Bool := h.tcpFlags &&& tcpFlagSyn ≠ 0

def synBatch (isSyn : Bool) : UInt32 := if isSyn then 1 else 0

/-- The port's tier, or the source's where that is a valid one. -/
def classify (m : Shared) (h : Headers) : UInt8 :=
  let vt := vipTier m h.srcIp
  if vt < tierCount then vt else portTier m h.dport

def blocked (m : Shared) (val : PolicyValue) (h : Headers) : Bool :=
  hasFlag val escSourceBlock && (m.srcBlock h.srcIp).isSome

def synEscalate (c : Ctx) (m : Shared) (val : PolicyValue) (h : Headers) : Bool × Buckets :=
  if hasFlag val escSynProxy && h.isSyn then
    tokenConsume val m.srcBuckets h.srcIp (classify m h) 1 c.synNs c.synStored
  else (true, m.srcBuckets)

def Maps.withBuckets (m : Maps) (bs : Buckets) : Maps := { m with shared := { m.shared with srcBuckets := bs } }

def admitV3 (c : Ctx) (m : Maps) (val : PolicyValue) (h : Headers) (tier : UInt8) (syn : UInt32) : Verdict × Maps :=
  let r := tokenConsume val m.shared.srcBuckets h.srcIp tier 1 c.admitNs c.admitStored
  let m := m.withBuckets r.2
  if r.1 then leave c m (1, 0, 0) syn 1 0 .pass
  else
    let dropPpm := tierDropPpm val tier
    if 0 < dropPpm ∧ c.rnd % ppmScale < dropPpm then
      if tier = tierCritical ∧ 0 < m.shared.devmap.getD 0 then leave c m (0, 0, 1) syn 0 0 (.redirectMap 0)
      else if 0 < val.redirectIfindex ∧ tier = tierCritical then
        leave c m (0, 0, 1) syn 0 0 (.redirect val.redirectIfindex)
      else leave c m (0, 1, 0) syn 0 1 .drop
    else leave c m (1, 0, 0) syn 1 0 .pass

/-- Below v3, or with no TCP header: graduated shed (v2), else the legacy binary drop. -/
def admitLegacy (c : Ctx) (m : Maps) (val : PolicyValue) (syn : UInt32) : Verdict × Maps :=
  if policyVersionV2 ≤ val.policyVersion ∧ 0 < val.shedPpm then
    if c.rnd % ppmScale < val.shedPpm then leave c m (0, 1, 0) syn 0 1 .drop
    else if 0 < val.redirectIfindex then leave c m (0, 0, 1) syn 0 0 (.redirect val.redirectIfindex)
    else leave c m (1, 0, 0) syn 1 0 .pass
  else if val.fault ≠ 0 ∧ (val.cause = causeNetwork ∨ val.cause = causeMixed) then
    leave c m (0, 1, 0) syn 0 1 .drop
  else leave c m (1, 0, 0) syn 1 0 .pass

def admitParsed (c : Ctx) (m : Maps) (val : PolicyValue) (h : Headers) : Verdict × Maps :=
  let syn := synBatch h.isSyn
  let tier := classify m.shared h
  if blocked m.shared val h then leave c m (0, 1, 0) syn 0 1 .drop
  else
    let r := synEscalate c m.shared val h
    let m := m.withBuckets r.2
    if ¬ r.1 then leave c m (0, 1, 0) syn 0 1 .drop
    else if policyVersionV3 ≤ val.policyVersion then admitV3 c m val h tier syn
    else admitLegacy c m val syn

def xdpMitigator (c : Ctx) (m : Maps) : Verdict × Maps :=
  match m.shared.policy with
  | none => (.pass, m)
  | some val =>
    if val.actuate = 0 then (.pass, m)
    else
      match parseIpv4Tcp c.frame with
      | .ok h => admitParsed c m val h
      | .error _ => admitLegacy c m val 0

end EliteTelemetry.Xdp
