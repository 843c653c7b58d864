/-
  EliteTelemetry.Forecaster.PolicySync — what a snapshot becomes for its readers: the value
  of the `elite_policy` map (`policy_bpf_sync.go`), the policy record (`policy_state.go`)
  and the decision file (`decision.go`).

  Files and maps outside are represented by what they answer. The JSON text of the decision
  and the file operations are left out.
-/

import EliteTelemetry.Forecaster.Overload
import EliteTelemetry.Lib.LittleEndian

namespace EliteTelemetry.Forecaster

open EliteTelemetry.Lib.GoNumbers
open EliteTelemetry.Lib.LittleEndian
open EliteTelemetry.Xdp (PolicyValue defaultTierRefillPpm)

/-! ## The policy map -/

def elitePolicyVersionV3 : UInt64 := 3

/-- `mu_tokens_per_sec`: the connection rate, scaled up to a projected load below one. -/
def policyMu (cv : Conv) (snap : Snapshot) : UInt32 :=
  let mu := cv.u32 snap.connRate
  let mu := if mu = 0 then 10000 else mu
  if 0 < snap.rhoProjected ∧ snap.rhoProjected < 1 then cv.u32 (mu.toNat / snap.rhoProjected) else mu

def policyValue (cv : Conv) (snap : Snapshot) (redirectIfindex : UInt32) : PolicyValue where
  policyVersion := elitePolicyVersionV3
  fault := if snap.fault then 1 else 0
  cause := causeToPolicyCode snap.cause
  actuate := 1
  projectedNs := cv.u64 (snap.projected * 1000000000)
  ewmaNs := cv.u64 (snap.ewma * 1000000000)
  overloadPpm := cv.u32 (snap.overloadFraction * ppmScale)
  -- a fault without a shed rate sheds everything
  shedPpm := if snap.shedPpm = 0 ∧ snap.fault then .ofNat ppmScale else snap.shedPpm
  redirectIfindex := redirectIfindex
  tierRefillPpm := defaultTierRefillPpm
  muTokensPerSec := policyMu cv snap
  rhoProjPpm := cv.u64 (snap.rhoProjected * ppmScale)
  escalateFlags :=
    (if 6 / 10 < snap.rhoProjected then 1 else 0) ||| (if 85 / 100 < snap.rhoProjected then 2 else 0)

inductive PinMap where
  | missing
  | unloadable (err : String)
  | refuses (err : String)
  | opens
  deriving DecidableEq, Repr

/-- The map was loaded, so that the sync counted in `policySeq`. -/
def PinMap.loads : PinMap → Bool
  | .refuses _ | .opens => true
  | .missing | .unloadable _ => false

/-- `SyncPolicyToBPFMap`: its error, and the value written. -/
def syncPolicyToBPFMap (cv : Conv) (pinPath : String) (pin : PinMap) (snap : Snapshot) (redirectIfindex : UInt32) :
    Option String × Option PolicyValue :=
  if pinPath = "" then (none, none)
  else
    match pin with
    | .missing => (none, none)
    | .unloadable err => (some ("load pinned policy map: " ++ err), none)
    | .refuses err => (some err, none)
    | .opens => (none, some (policyValue cv snap redirectIfindex))

theorem sync_written {cv : Conv} {pinPath : String} {pin : PinMap} {snap : Snapshot} {ifindex : UInt32} {v : PolicyValue}
    (h : (syncPolicyToBPFMap cv pinPath pin snap ifindex).2 = some v) : v = policyValue cv snap ifindex := by
  unfold syncPolicyToBPFMap at h
  split at h
  · cases h
  · split at h <;> cases h
    rfl

/-! ## The policy record -/

def policyRecordSize : Nat := 64

def policyMagic : List UInt8 := [0x45, 0x4c, 0x50, 0x53]

def policyRecord (cv : Conv) (seq nowNs : UInt64) (snap : Snapshot) : List UInt8 :=
  policyMagic ++ bytes 4 1 ++ bytes 8 seq.toNat ++ [if snap.fault then 1 else 0, causeToPolicyCode snap.cause] ++
    List.replicate 6 0 ++ bytes 8 (cv.u64 (snap.projected * 1000000000)).toNat ++
    bytes 8 (cv.u64 (snap.ewma * 1000000000)).toNat ++ bytes 8 nowNs.toNat ++ List.replicate 16 0

def recordFault (record : List UInt8) : UInt8 := record.getD 16 0
def recordCause (record : List UInt8) : UInt8 := record.getD 17 0

theorem policyRecord_fault (cv : Conv) (seq nowNs : UInt64) (snap : Snapshot) :
    recordFault (policyRecord cv seq nowNs snap) = if snap.fault then 1 else 0 := rfl

theorem policyRecord_cause (cv : Conv) (seq nowNs : UInt64) (snap : Snapshot) :
    recordCause (policyRecord cv seq nowNs snap) = causeToPolicyCode snap.cause := rfl

/-! ## The decision file -/

structure DecisionBus where
  fault : Bool
  cause : Cause
  projected : ℚ
  ewma : ℚ
  deriving DecidableEq, Repr

def decision (snap : Snapshot) : DecisionBus := ⟨snap.fault, snap.cause, snap.projected, snap.ewma⟩

end EliteTelemetry.Forecaster
