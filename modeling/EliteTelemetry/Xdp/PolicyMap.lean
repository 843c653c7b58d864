/-
  EliteTelemetry.Xdp.PolicyMap — the maps the XDP mitigator and the forecaster share
  (`bpf/policy_map.h`; the policy value is `bpfPolicyValue` of
  `pkg/forecaster/policy_bpf_sync.go`).

  Fields keep their C widths, so that arithmetic on them wraps as the program's does.
  Padding is left out. A hash map is the function a lookup computes; the LPM trie is the
  answer to a /32 lookup (`vip_tier` asks nothing else). `elite_cpumap` is read by no
  program and is left out.

  The maps fall in two groups. `Shared` holds what user space or another CPU may rewrite
  between two packets of this one; `PerCpu` holds what only this CPU's program writes.
  The ring is the list of events submitted so far.
-/

namespace EliteTelemetry.Xdp

def policyVersionV2 : UInt64 := 2
def policyVersionV3 : UInt64 := 3

def causeNetwork : UInt8 := 1
def causeMixed : UInt8 := 4

def tierCritical : UInt8 := 0
def tierStandard : UInt8 := 1
def tierBackground : UInt8 := 2
def tierCount : UInt8 := 3

def escSynProxy : UInt32 := 2
def escSourceBlock : UInt32 := 8

def ppmScale : UInt32 := 1000000
def lambdaRingBatch : UInt32 := 1024

structure PolicyValue where
  policyVersion : UInt64
  fault : UInt8
  cause : UInt8
  actuate : UInt8
  projectedNs : UInt64
  ewmaNs : UInt64
  overloadPpm : UInt32
  shedPpm : UInt32
  redirectIfindex : UInt32
  tierRefillPpm : Vector UInt32 4
  muTokensPerSec : UInt32
  rhoProjPpm : UInt64
  escalateFlags : UInt32
  deriving DecidableEq, Repr

def defaultTierRefillPpm : Vector UInt32 4 := #v[1000000, 500000, 100000, 0]

structure XdpStat where
  pass : UInt64
  drop : UInt64
  redirect : UInt64
  deriving DecidableEq, Repr

structure TokenBucket where
  tokens : UInt64
  lastRefillNs : UInt64
  deriving DecidableEq, Repr

structure LambdaEvent where
  tsNs : UInt64
  pktCount : UInt32
  synCount : UInt32
  passCount : UInt32
  dropCount : UInt32
  deriving DecidableEq, Repr

structure SrcKey where
  srcIp : UInt32
  tier : UInt8
  deriving DecidableEq, Repr

abbrev Buckets := SrcKey → Option TokenBucket

structure Shared where
  /-- The global entry of `elite_policy`. -/
  policy : Option PolicyValue
  /-- `elite_port_tier`, by destination port. -/
  portTier : UInt16 → Option UInt8
  /-- `elite_vip_lpm`, by source address. -/
  vipLpm : UInt32 → Option UInt8
  srcBlock : UInt32 → Option UInt8
  /-- Entry 0 of `elite_devmap`. -/
  devmap : Option UInt32
  srcBuckets : Buckets

/-- `elite_xdp_stats` and `elite_pkt_counter`: per-CPU arrays of one entry, always found. -/
structure PerCpu where
  stats : XdpStat
  pktCounter : UInt64
  deriving DecidableEq, Repr

def PerCpu.zero : PerCpu := ⟨⟨0, 0, 0⟩, 0⟩

structure Maps where
  shared : Shared
  cpu : PerCpu
  lambdaRing : List LambdaEvent

end EliteTelemetry.Xdp
