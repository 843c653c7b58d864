/-
  EliteTelemetry.Forecaster.PolicyFile — the policy record on disk (`WritePolicyState` and
  `ReadPolicyState` of `pkg/forecaster/policy_state.go`).

  A write puts its fields into 64 zero bytes at literal offsets, into a file beside the one it is
  for, and renames that over it. A read checks the length and the magic and cuts the fields out at
  offsets of its own. The system may fail the write after any number of bytes, or the rename.

  - `encode_eq`: the fields do not overlap; the bytes are those of `policyRecord`.
  - `policy_state_round_trip`: whatever the disk held and however many writes went before, a read
    after a write gives its fault and cause, and its two values cut to nanoseconds.
  - `failed_write_keeps`: a write that fails leaves what is read as it was.
-/

import EliteTelemetry.Forecaster.PolicySync
import EliteTelemetry.Lib.CStruct
import EliteTelemetry.Lib.Files

namespace EliteTelemetry.Forecaster

open EliteTelemetry.Lib.GoNumbers EliteTelemetry.Lib.LittleEndian EliteTelemetry.Lib.CStruct EliteTelemetry.Lib.Files

/-! ## Writing -/

def encode (cv : Conv) (seq nowNs : UInt64) (snap : Snapshot) : List UInt8 :=
  let fault := if snap.fault then 1 else 0
  let record := List.replicate policyRecordSize 0
  let record := put record 0 policyMagic
  let record := put record 4 (bytes 4 1)
  let record := put record 8 (bytes 8 seq.toNat)
  let record := put record 16 [fault]
  let record := put record 17 [causeToPolicyCode snap.cause]
  let record := put record 24 (bytes 8 (cv.u64 (snap.projected * 1000000000)).toNat)
  let record := put record 32 (bytes 8 (cv.u64 (snap.ewma * 1000000000)).toNat)
  put record 40 (bytes 8 nowNs.toNat)

structure Disk where
  files : FS String
  policySeq : UInt64

structure WriteEnv where
  nowNs : UInt64
  write : WriteFault
  renameFails : Bool

/-- Whether it succeeded, and the disk after it. -/
def writePolicyState (cv : Conv) (env : WriteEnv) (path : String) (snap : Snapshot) (d : Disk) : Bool × Disk :=
  if path = "" then (true, d)
  else
    let policySeq := d.policySeq + 1
    let tmp := path ++ ".tmp"
    let written := writeFile env.write tmp (encode cv policySeq env.nowNs snap) d.files
    if written.1 = false then (false, ⟨written.2, policySeq⟩)
    else
      let renamed := rename env.renameFails tmp path written.2
      (renamed.1, ⟨renamed.2, policySeq⟩)

/-! ## Reading -/

inductive ReadFault where
  | unreadable
  | invalid
  deriving DecidableEq, Repr

def zeroSnapshot : Snapshot := ⟨0, 0, 0, 0, 0, false, .other "", 0, 0, 0, 0, 0⟩

def readPolicyState (files : FS String) (path : String) : Except ReadFault Snapshot :=
  match files path with
  | none => .error .unreadable
  | some b =>
    if b.length < policyRecordSize then .error .invalid
    else if slice b 0 4 ≠ policyMagic then .error .invalid
    else
      .ok { zeroSnapshot with
        fault := b.getD 16 0 = 1
        cause := policyCodeToCause (b.getD 17 0)
        projected := value (slice b 24 32) / 1000000000
        ewma := value (slice b 32 40) / 1000000000 }

/-! ## The round trip -/

theorem encode_eq (cv : Conv) (seq nowNs : UInt64) (snap : Snapshot) :
    encode cv seq nowNs snap = policyRecord cv seq nowNs snap := by
  have hmagic : policyMagic.length = 4 := rfl
  unfold encode policyRecord policyRecordSize
  simp (disch := simp [hmagic]) only [put_behind, put_zeros, hmagic, bytes_length, List.length_replicate,
    List.length_cons, List.length_nil, List.replicate_zero, List.nil_append, Nat.reduceAdd, Nat.reduceSub,
    List.append_assoc]
  rfl

theorem policyCodeToCause_of_code {c : Cause} (h : ∀ label, c ≠ .other label) :
    policyCodeToCause (causeToPolicyCode c) = c := by
  cases c with
  | other label => exact absurd rfl (h label)
  | none => rfl
  | network => rfl
  | llc => rfl
  | psi => rfl
  | mixed => rfl

/-- A value below 2^64 nanoseconds is read back cut to nanoseconds. -/
theorem value_of_nanoseconds (cv : Conv) {x : ℚ} (hlo : 0 ≤ x) (hhi : x < 2 ^ 64 / 10 ^ 9) :
    (value (bytes 8 (cv.u64 (x * 1000000000)).toNat) : ℚ) = ⌊x * 10 ^ 9⌋ := by
  have hbound : x * 10 ^ 9 < 2 ^ 64 := (lt_div_iff₀ (by norm_num)).mp hhi
  have hscaled : x * 1000000000 = x * 10 ^ 9 := by norm_num
  have hfits := cv.u64_fits (x * 10 ^ 9) (by linarith [mul_nonneg hlo (by norm_num : (0 : ℚ) ≤ 10 ^ 9)]) hbound
  rw [trunc_of_nonneg (by positivity)] at hfits
  rw [hscaled, value_bytes_of_lt (by exact UInt64.toNat_lt _), ← hfits]
  rfl

variable {cv : Conv} {snap : Snapshot} {path : String}

theorem read_policyRecord {files : FS String} {seq nowNs : UInt64}
    (hfile : files path = some (policyRecord cv seq nowNs snap)) (hcause : ∀ label, snap.cause ≠ .other label)
    (hprojected : 0 ≤ snap.projected) (hprojected' : snap.projected < 2 ^ 64 / 10 ^ 9) (hewma : 0 ≤ snap.ewma)
    (hewma' : snap.ewma < 2 ^ 64 / 10 ^ 9) :
    readPolicyState files path = .ok { zeroSnapshot with
      fault := snap.fault
      cause := snap.cause
      projected := ⌊snap.projected * 10 ^ 9⌋ / 10 ^ 9
      ewma := ⌊snap.ewma * 10 ^ 9⌋ / 10 ^ 9 } := by
  have hlen : ¬(policyRecord cv seq nowNs snap).length < policyRecordSize := by
    show ¬64 < 64
    decide
  have hmagic : slice (policyRecord cv seq nowNs snap) 0 4 = policyMagic := rfl
  have hfault : decide ((policyRecord cv seq nowNs snap).getD 16 0 = 1) = snap.fault := by
    show decide ((if snap.fault then 1 else 0 : UInt8) = 1) = snap.fault
    cases snap.fault <;> rfl
  have hcode : (policyRecord cv seq nowNs snap).getD 17 0 = causeToPolicyCode snap.cause := rfl
  have hp : slice (policyRecord cv seq nowNs snap) 24 32 = bytes 8 (cv.u64 (snap.projected * 1000000000)).toNat := rfl
  have he : slice (policyRecord cv seq nowNs snap) 32 40 = bytes 8 (cv.u64 (snap.ewma * 1000000000)).toNat := rfl
  unfold readPolicyState
  rw [hfile]
  simp only [if_neg hlen, hmagic, ne_eq, not_true_eq_false, if_false, hfault, hcode, policyCodeToCause_of_code hcause,
    hp, he, value_of_nanoseconds cv hprojected hprojected', value_of_nanoseconds cv hewma hewma']
  norm_num

theorem tmp_ne (path : String) : path ++ ".tmp" ≠ path := by
  intro h
  have hlen := congrArg String.length h
  rw [String.length_append] at hlen
  exact absurd hlen (by simp)

theorem written_record {env : WriteEnv} (hpath : path ≠ "") {d : Disk}
    (hok : (writePolicyState cv env path snap d).1 = true) :
    (writePolicyState cv env path snap d).2.files path =
      some (policyRecord cv (d.policySeq + 1) env.nowNs snap) := by
  simp only [writePolicyState, if_neg hpath] at hok ⊢
  split at hok
  · cases hok
  · next hwritten =>
    have hfiles := writeFile_succeeds (Bool.not_eq_false _ ▸ hwritten)
    rw [if_neg hwritten]
    rw [hfiles] at hok ⊢
    cases hrename : env.renameFails with
    | true =>
      rw [hrename, rename_fault] at hok
      cases hok
    | false =>
      rw [rename_ok (Function.update_self _ _ _) (tmp_ne path), encode_eq]
      exact (Function.update_of_ne (tmp_ne path).symm _ _).trans (Function.update_self _ _ _)

theorem failed_write_keeps {env : WriteEnv} {d : Disk} (hfail : (writePolicyState cv env path snap d).1 = false) :
    readPolicyState (writePolicyState cv env path snap d).2.files path = readPolicyState d.files path := by
  have hkept : (writePolicyState cv env path snap d).2.files path = d.files path := by
    simp only [writePolicyState] at hfail ⊢
    split
    · rfl
    · next hpath =>
      rw [if_neg hpath] at hfail
      split
      · exact writeFile_of_ne env.write (tmp_ne path).symm _
      · next hwritten =>
        rw [if_neg hwritten] at hfail
        rw [rename_fails hfail]
        exact writeFile_of_ne env.write (tmp_ne path).symm _
  unfold readPolicyState
  rw [hkept]

def afterWrites (cv : Conv) (earlier : List (WriteEnv × String × Snapshot)) (d : Disk) : Disk :=
  earlier.foldl (fun d w => (writePolicyState cv w.1 w.2.1 w.2.2 d).2) d

/-- A read after a write gives back what was written, the values cut to nanoseconds. -/
theorem policy_state_round_trip (cv : Conv) {snap : Snapshot}
    (hcause : snap.cause ∈ [Cause.none, .network, .llc, .psi, .mixed]) (hprojected : 0 ≤ snap.projected)
    (hprojected' : snap.projected < 2 ^ 64 / 10 ^ 9) (hewma : 0 ≤ snap.ewma) (hewma' : snap.ewma < 2 ^ 64 / 10 ^ 9)
    (earlier : List (WriteEnv × String × Snapshot)) (d : Disk) (env : WriteEnv) {path : String} (hpath : path ≠ "")
    (hok : (writePolicyState cv env path snap (afterWrites cv earlier d)).1 = true) :
    readPolicyState (writePolicyState cv env path snap (afterWrites cv earlier d)).2.files path =
      .ok { zeroSnapshot with
        fault := snap.fault
        cause := snap.cause
        projected := ⌊snap.projected * 10 ^ 9⌋ / 10 ^ 9
        ewma := ⌊snap.ewma * 10 ^ 9⌋ / 10 ^ 9 } := by
  have hlabel : ∀ label, snap.cause ≠ .other label := by
    intro label h
    rw [h] at hcause
    simp at hcause
  exact read_policyRecord (written_record hpath hok) hlabel hprojected hprojected' hewma hewma'

def faultSnapshot : Snapshot :=
  { zeroSnapshot with
    fault := true
    cause := .network
    projected := 12 / 100 + 1 / 10 ^ 10
    ewma := 8 / 100 }

/-- Over a file with other contents, on a disk where nothing fails. -/
theorem policy_state_round_trip_over :
    readPolicyState (writePolicyState saturating ⟨7, .none, false⟩ "p" faultSnapshot
        (afterWrites saturating [] ⟨fun _ => some [1, 2, 3], 0⟩)).2.files "p" =
      .ok { zeroSnapshot with
        fault := true
        cause := .network
        projected := ⌊(12 / 100 + 1 / 10 ^ 10 : ℚ) * 10 ^ 9⌋ / 10 ^ 9
        ewma := ⌊(8 / 100 : ℚ) * 10 ^ 9⌋ / 10 ^ 9 } :=
  policy_state_round_trip saturating (by decide) (by norm_num [faultSnapshot]) (by norm_num [faultSnapshot])
    (by norm_num [faultSnapshot]) (by norm_num [faultSnapshot]) [] _ _ (by decide) (by decide +kernel)

end EliteTelemetry.Forecaster
