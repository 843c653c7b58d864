/-
  EliteTelemetry.Forecaster.PolicyEncoding — the second encoder of a policy value,
  `EncodeBPFPolicyValue` of `policy_bpf_sync.go`, beside `SyncPolicyToBPFMap`.

  The sync fills in a struct by its fields, and the map holds it as C lays it out
  (`struct elite_policy_value` of `bpf/policy_map.h`). The encoder writes into 80 zero bytes
  by offsets. Every offset it writes at is that of the field it means
  (`encode_eq_policyBytes`), but it writes fewer fields than the sync:
  - the refill rates of the tiers stay zero, where the sync writes them for every snapshot;
  - the token rate stays zero;
  - the escalation flags stay zero, where the sync sets them above a projected load of 0.6;
  - a fault without a shed rate is written as it is, where the sync sheds everything.

  So the bytes are never those of the value in the map, and `encode_agrees_iff` says of each
  field when its bytes are.
-/

import EliteTelemetry.Forecaster.PolicySync
import EliteTelemetry.Lib.CStruct

namespace EliteTelemetry.Forecaster

open EliteTelemetry.Lib.GoNumbers
open EliteTelemetry.Lib.LittleEndian
open EliteTelemetry.Lib.CStruct
open EliteTelemetry.Xdp (PolicyValue defaultTierRefillPpm)

/-! ## The struct -/

/-- The members of `struct elite_policy_value`, the elements of its arrays one by one. -/
inductive PolicyField where
  | policyVersion
  | fault
  | cause
  | actuate
  | pad (i : Fin 5)
  | projectedNs
  | ewmaNs
  | overloadPpm
  | shedPpm
  | redirectIfindex
  | tierRefillPpm (i : Fin 4)
  | muTokensPerSec
  | rhoProjPpm
  | escalateFlags
  | padEnd
  deriving DecidableEq, Repr

namespace PolicyField

def index : PolicyField → Nat
  | policyVersion => 0
  | fault => 1
  | cause => 2
  | actuate => 3
  | pad i => 4 + i
  | projectedNs => 9
  | ewmaNs => 10
  | overloadPpm => 11
  | shedPpm => 12
  | redirectIfindex => 13
  | tierRefillPpm i => 14 + i
  | muTokensPerSec => 18
  | rhoProjPpm => 19
  | escalateFlags => 20
  | padEnd => 21

def width : PolicyField → Nat
  | fault | cause | actuate | pad _ => 1
  | overloadPpm | shedPpm | redirectIfindex | tierRefillPpm _ | muTokensPerSec | escalateFlags | padEnd => 4
  | policyVersion | projectedNs | ewmaNs | rhoProjPpm => 8

def value (v : PolicyValue) : PolicyField → Nat
  | policyVersion => v.policyVersion.toNat
  | fault => v.fault.toNat
  | cause => v.cause.toNat
  | actuate => v.actuate.toNat
  | pad _ => 0
  | projectedNs => v.projectedNs.toNat
  | ewmaNs => v.ewmaNs.toNat
  | overloadPpm => v.overloadPpm.toNat
  | shedPpm => v.shedPpm.toNat
  | redirectIfindex => v.redirectIfindex.toNat
  | tierRefillPpm i => (v.tierRefillPpm.get i).toNat
  | muTokensPerSec => v.muTokensPerSec.toNat
  | rhoProjPpm => v.rhoProjPpm.toNat
  | escalateFlags => v.escalateFlags.toNat
  | padEnd => 0

def all : List PolicyField :=
  [policyVersion, fault, cause, actuate, pad 0, pad 1, pad 2, pad 3, pad 4, projectedNs, ewmaNs, overloadPpm, shedPpm,
    redirectIfindex, tierRefillPpm 0, tierRefillPpm 1, tierRefillPpm 2, tierRefillPpm 3, muTokensPerSec, rhoProjPpm,
    escalateFlags, padEnd]

theorem all_index (f : PolicyField) : all[f.index]? = some f := by
  cases f with
  | pad i => revert i; decide
  | tierRefillPpm i => revert i; decide
  | _ => rfl

def offset (f : PolicyField) : Nat := Lib.CStruct.offset 0 (all.map width) f.index

theorem value_lt (v : PolicyValue) (f : PolicyField) : f.value v < 256 ^ f.width := by
  cases f with
  | policyVersion => exact v.policyVersion.toNat_lt
  | fault => exact v.fault.toNat_lt
  | cause => exact v.cause.toNat_lt
  | actuate => exact v.actuate.toNat_lt
  | projectedNs => exact v.projectedNs.toNat_lt
  | ewmaNs => exact v.ewmaNs.toNat_lt
  | overloadPpm => exact v.overloadPpm.toNat_lt
  | shedPpm => exact v.shedPpm.toNat_lt
  | redirectIfindex => exact v.redirectIfindex.toNat_lt
  | tierRefillPpm i => exact (v.tierRefillPpm.get i).toNat_lt
  | muTokensPerSec => exact v.muTokensPerSec.toNat_lt
  | rhoProjPpm => exact v.rhoProjPpm.toNat_lt
  | escalateFlags => exact v.escalateFlags.toNat_lt
  | pad i => exact Nat.pow_pos (by decide)
  | padEnd => exact Nat.pow_pos (by decide)

end PolicyField

def structBytes (val : PolicyField → Nat) : List UInt8 := layout (PolicyField.all.map fun f => ⟨f.width, val f⟩)

def policyBytes (v : PolicyValue) : List UInt8 := structBytes fun f => f.value v

def fieldBytes (bs : List UInt8) (f : PolicyField) : List UInt8 := slice bs f.offset (f.offset + f.width)

theorem members_getElem? (val : PolicyField → Nat) (f : PolicyField) :
    (PolicyField.all.map fun f => (⟨f.width, val f⟩ : Member))[f.index]? = some ⟨f.width, val f⟩ := by
  rw [List.getElem?_map, PolicyField.all_index]
  rfl

theorem members_width (val : PolicyField → Nat) :
    (PolicyField.all.map fun f => (⟨f.width, val f⟩ : Member)).map (·.width) = PolicyField.all.map PolicyField.width := by
  rw [List.map_map]
  rfl

theorem fieldBytes_structBytes (val : PolicyField → Nat) (f : PolicyField) :
    fieldBytes (structBytes val) f = bytes f.width (val f) := by
  have h := slice_layout (members_getElem? val f)
  rwa [members_width] at h

theorem members_set (val : PolicyField → Nat) (f : PolicyField) (n : Nat) :
    (PolicyField.all.map fun g => (⟨g.width, val g⟩ : Member)).set f.index ⟨f.width, n⟩ =
      PolicyField.all.map fun g => ⟨g.width, Function.update val f n g⟩ := by
  cases f with
  | pad i => match i with | 0 | 1 | 2 | 3 | 4 => rfl
  | tierRefillPpm i => match i with | 0 | 1 | 2 | 3 => rfl
  | _ => rfl

def putField (bs : List UInt8) (f : PolicyField) (n : Nat) : List UInt8 := put bs f.offset (bytes f.width n)

theorem putField_structBytes (val : PolicyField → Nat) (f : PolicyField) (n : Nat) :
    putField (structBytes val) f n = structBytes (Function.update val f n) := by
  have h := put_layout (members_getElem? val f) n
  rw [members_width, members_set] at h
  exact h

/-! ## The encoder -/

def bpfPolicyValueLen : Nat := 80

def encodeBPFPolicyValue (cv : Conv) (snap : Snapshot) (ver : UInt64) : List UInt8 :=
  let out := List.replicate bpfPolicyValueLen 0
  let out := put out 0 (bytes 8 ver.toNat)
  let out := if snap.fault then put out 8 [1] else out
  let out := put out 9 [causeToPolicyCode snap.cause]
  let out := put out 10 [1]
  let out := put out 16 (bytes 8 (cv.u64 (snap.projected * 1000000000)).toNat)
  let out := put out 24 (bytes 8 (cv.u64 (snap.ewma * 1000000000)).toNat)
  let out := put out 32 (bytes 4 (cv.u32 (snap.overloadFraction * ppmScale)).toNat)
  let out := put out 36 (bytes 4 snap.shedPpm.toNat)
  put out 64 (bytes 8 (cv.u64 (snap.rhoProjected * ppmScale)).toNat)

def encodedValue (cv : Conv) (snap : Snapshot) (ver : UInt64) : PolicyValue where
  policyVersion := ver
  fault := if snap.fault then 1 else 0
  cause := causeToPolicyCode snap.cause
  actuate := 1
  projectedNs := cv.u64 (snap.projected * 1000000000)
  ewmaNs := cv.u64 (snap.ewma * 1000000000)
  overloadPpm := cv.u32 (snap.overloadFraction * ppmScale)
  shedPpm := snap.shedPpm
  redirectIfindex := 0
  tierRefillPpm := Vector.replicate 4 0
  muTokensPerSec := 0
  rhoProjPpm := cv.u64 (snap.rhoProjected * ppmScale)
  escalateFlags := 0

/-- Every offset the encoder writes at is that of the field it means. -/
theorem encode_eq_putField (cv : Conv) (snap : Snapshot) (ver : UInt64) :
    encodeBPFPolicyValue cv snap ver =
      let out := putField (List.replicate bpfPolicyValueLen 0) .policyVersion ver.toNat
      let out := if snap.fault then putField out .fault 1 else out
      let out := putField out .cause (causeToPolicyCode snap.cause).toNat
      let out := putField out .actuate 1
      let out := putField out .projectedNs (cv.u64 (snap.projected * 1000000000)).toNat
      let out := putField out .ewmaNs (cv.u64 (snap.ewma * 1000000000)).toNat
      let out := putField out .overloadPpm (cv.u32 (snap.overloadFraction * ppmScale)).toNat
      let out := putField out .shedPpm snap.shedPpm.toNat
      putField out .rhoProjPpm (cv.u64 (snap.rhoProjected * ppmScale)).toNat := by
  have hcause : [causeToPolicyCode snap.cause] = bytes 1 (causeToPolicyCode snap.cause).toNat := by simp [bytes]
  unfold encodeBPFPolicyValue
  rw [hcause]
  rfl

theorem ite_putField {val : PolicyField → Nat} {f : PolicyField} (h : val f = 0) (c : Prop) [Decidable c] (n : Nat) :
    (if c then putField (structBytes val) f n else structBytes val) =
      structBytes (Function.update val f (if c then n else 0)) := by
  by_cases hc : c
  · rw [if_pos hc, if_pos hc, putField_structBytes]
  · rw [if_neg hc, if_neg hc, ← h, Function.update_eq_self]

theorem encode_eq_policyBytes (cv : Conv) (snap : Snapshot) (ver : UInt64) :
    encodeBPFPolicyValue cv snap ver = policyBytes (encodedValue cv snap ver) := by
  have hzero : List.replicate bpfPolicyValueLen 0 = structBytes fun _ => 0 := by decide +kernel
  rw [encode_eq_putField, hzero]
  simp only [putField_structBytes _ .policyVersion]
  rw [ite_putField rfl]
  simp only [putField_structBytes]
  unfold policyBytes
  congr 1
  funext f
  cases f with
  | tierRefillPpm i => match i with | 0 | 1 | 2 | 3 => rfl
  | fault => cases hfault : snap.fault <;> simp [PolicyField.value, encodedValue, hfault]
  | _ => rfl

/-! ## What the two agree on -/

/-- The snapshots for which the encoder and the sync write the same into a field. -/
def Agrees (cv : Conv) (snap : Snapshot) : PolicyField → Prop
  | .shedPpm => ¬(snap.shedPpm = 0 ∧ snap.fault = true)
  | .tierRefillPpm i => i = 3
  | .muTokensPerSec => policyMu cv snap = 0
  | .escalateFlags => snap.rhoProjected ≤ 6 / 10
  | _ => True

theorem shedPpm_eq_iff (cv : Conv) (snap : Snapshot) :
    (encodedValue cv snap 3).shedPpm = (policyValue cv snap 0).shedPpm ↔ ¬(snap.shedPpm = 0 ∧ snap.fault = true) := by
  simp only [encodedValue, policyValue]
  by_cases h : snap.shedPpm = 0 ∧ snap.fault = true
  · rw [if_pos h]
    refine iff_of_false ?_ (not_not.mpr h)
    rw [h.1]
    decide
  · rw [if_neg h]
    exact iff_of_true rfl h

theorem escalateFlags_eq_iff (cv : Conv) (snap : Snapshot) :
    (encodedValue cv snap 3).escalateFlags = (policyValue cv snap 0).escalateFlags ↔ snap.rhoProjected ≤ 6 / 10 := by
  simp only [encodedValue, policyValue]
  by_cases h : snap.rhoProjected ≤ 6 / 10
  · have hlow : ¬85 / 100 < snap.rhoProjected := by linarith
    rw [if_neg (not_lt.mpr h), if_neg hlow]
    exact iff_of_true (by decide) h
  · rw [if_pos (not_le.mp h)]
    refine iff_of_false ?_ h
    split <;> decide

theorem value_eq_iff (cv : Conv) (snap : Snapshot) (f : PolicyField) :
    f.value (encodedValue cv snap 3) = f.value (policyValue cv snap 0) ↔ Agrees cv snap f := by
  cases f with
  | shedPpm => exact UInt32.toNat_inj.trans (shedPpm_eq_iff cv snap)
  | tierRefillPpm i =>
    show ((Vector.replicate 4 (0 : UInt32)).get i).toNat = (defaultTierRefillPpm.get i).toNat ↔ i = 3
    revert i
    decide
  | muTokensPerSec => exact UInt32.toNat_inj.trans eq_comm
  | escalateFlags => exact UInt32.toNat_inj.trans (escalateFlags_eq_iff cv snap)
  | _ => exact iff_of_true rfl trivial

/-- Each field of what the encoder returns has the bytes of that field in the map exactly for
    the snapshots on which the two agree, and the whole never has the bytes of the whole. -/
theorem encode_agrees_iff {cv : Conv} {pinPath : String} {pin : PinMap} {snap : Snapshot} {v : PolicyValue}
    (h : (syncPolicyToBPFMap cv pinPath pin snap 0).2 = some v) :
    (∀ f, fieldBytes (encodeBPFPolicyValue cv snap 3) f = fieldBytes (policyBytes v) f ↔ Agrees cv snap f) ∧
      encodeBPFPolicyValue cv snap 3 ≠ policyBytes v := by
  obtain rfl := sync_written h
  have hfield : ∀ f, fieldBytes (encodeBPFPolicyValue cv snap 3) f = fieldBytes (policyBytes (policyValue cv snap 0)) f ↔
      Agrees cv snap f := by
    intro f
    rw [encode_eq_policyBytes, policyBytes, policyBytes, fieldBytes_structBytes, fieldBytes_structBytes,
      bytes_inj (f.value_lt _) (f.value_lt _), value_eq_iff]
  refine ⟨hfield, fun heq => ?_⟩
  have htier : (0 : Fin 4) = 3 := (hfield (.tierRefillPpm 0)).mp (by rw [heq])
  exact absurd htier (by decide)

def idleSnapshot : Snapshot := ⟨0, 0, 0, 0, 0, false, .none, 1, 0, 0, 0, 0⟩

theorem encode_agrees_idle :
    fieldBytes (encodeBPFPolicyValue saturating idleSnapshot 3) .escalateFlags =
      fieldBytes (policyBytes (policyValue saturating idleSnapshot 0)) .escalateFlags := by
  refine ((@encode_agrees_iff saturating "/sys/fs/bpf/elite_policy" .opens idleSnapshot _ rfl).1 .escalateFlags).mpr ?_
  show (0 : ℚ) ≤ 6 / 10
  norm_num

/-- The refill rate of the first tier is a million in the map and zero in the encoder's bytes. -/
theorem the_encoder_leaves_the_tiers_out :
    ∃ v, (syncPolicyToBPFMap saturating "/sys/fs/bpf/elite_policy" .opens idleSnapshot 0).2 = some v ∧
      slice (policyBytes v) 44 48 = [64, 66, 15, 0] ∧
      slice (encodeBPFPolicyValue saturating idleSnapshot 3) 44 48 = [0, 0, 0, 0] ∧
      encodeBPFPolicyValue saturating idleSnapshot 3 ≠ policyBytes v := by
  refine ⟨_, rfl, by decide +kernel, by decide +kernel, fun h => ?_⟩
  have htier := congrArg (slice · 44 48) h
  revert htier
  decide +kernel

end EliteTelemetry.Forecaster
