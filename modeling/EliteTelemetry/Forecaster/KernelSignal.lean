/-
  EliteTelemetry.Forecaster.KernelSignal — the forecaster's end of the lambda ring
  (`pkg/forecaster/kernel_signal.go`).

  The kernel submits the 24 bytes of `struct elite_lambda_event`. `decodeLambdaEvent` reads
  its five fields at their places, but asks for 32 bytes first: every event the kernel can
  submit is refused (`decode_refuses_kernel_events`), and the reader's `Latest` stays at the
  zero event for good (`reader_stays_empty`). Eight more bytes would be enough
  (`decode_padded`).
-/

import EliteTelemetry.Lib.LittleEndian
import EliteTelemetry.Xdp.Accounting
import Mathlib.Algebra.Order.Ring.Rat

namespace EliteTelemetry.Forecaster

open EliteTelemetry.Lib.LittleEndian
open EliteTelemetry.Lib.Machine
open EliteTelemetry.Xdp (LambdaEvent)

/-! ## The kernel's bytes -/

/-- The bytes of `struct elite_lambda_event`: no padding, on a little-endian host. -/
def lambdaEventBytes (ev : LambdaEvent) : List UInt8 :=
  bytes 8 ev.tsNs.toNat ++ (bytes 4 ev.pktCount.toNat ++ (bytes 4 ev.synCount.toNat ++
    (bytes 4 ev.passCount.toNat ++ bytes 4 ev.dropCount.toNat)))

@[simp] theorem lambdaEventBytes_length (ev : LambdaEvent) : (lambdaEventBytes ev).length = 24 := by
  simp [lambdaEventBytes]

/-! ## Decoding -/

def uint32At (b : List UInt8) (lo hi : Nat) : UInt32 := .ofNat (value (slice b lo hi))
def uint64At (b : List UInt8) (lo hi : Nat) : UInt64 := .ofNat (value (slice b lo hi))

def decodeLambdaEvent (b : List UInt8) : Except String LambdaEvent :=
  if b.length < 32 then .error ("short lambda event " ++ toString b.length)
  else .ok ⟨uint64At b 0 8, uint32At b 8 12, uint32At b 12 16, uint32At b 16 20, uint32At b 20 24⟩

theorem uint32At_bytes (pre post : List UInt8) (lo : Nat) (n : UInt32) (hlo : pre.length = lo) :
    uint32At (pre ++ (bytes 4 n.toNat ++ post)) lo (lo + 4) = n := by
  unfold uint32At
  rw [slice_append hlo (by rw [bytes_length]), value_bytes_of_lt n.toNat_lt, UInt32.ofNat_toNat]

theorem uint64At_bytes (pre post : List UInt8) (lo : Nat) (n : UInt64) (hlo : pre.length = lo) :
    uint64At (pre ++ (bytes 8 n.toNat ++ post)) lo (lo + 8) = n := by
  unfold uint64At
  rw [slice_append hlo (by rw [bytes_length]), value_bytes_of_lt n.toNat_lt, UInt64.ofNat_toNat]

/-- The offsets are the struct's: with eight bytes of anything after it an event is read
    back as it was. -/
theorem decode_padded (ev : LambdaEvent) (pad : List UInt8) (hp : 8 ≤ pad.length) :
    decodeLambdaEvent (lambdaEventBytes ev ++ pad) = .ok ev := by
  have hlen : ¬ (lambdaEventBytes ev ++ pad).length < 32 := by
    rw [List.length_append, lambdaEventBytes_length]
    omega
  unfold decodeLambdaEvent
  rw [if_neg hlen]
  obtain ⟨ts, pkt, syn, pass, drop⟩ := ev
  have hts := uint64At_bytes [] (bytes 4 pkt.toNat ++ bytes 4 syn.toNat ++ bytes 4 pass.toNat ++ bytes 4 drop.toNat ++ pad)
    0 ts rfl
  have hpkt := uint32At_bytes (bytes 8 ts.toNat) (bytes 4 syn.toNat ++ bytes 4 pass.toNat ++ bytes 4 drop.toNat ++ pad)
    8 pkt (by simp)
  have hsyn := uint32At_bytes (bytes 8 ts.toNat ++ bytes 4 pkt.toNat) (bytes 4 pass.toNat ++ bytes 4 drop.toNat ++ pad)
    12 syn (by simp)
  have hpass := uint32At_bytes (bytes 8 ts.toNat ++ bytes 4 pkt.toNat ++ bytes 4 syn.toNat) (bytes 4 drop.toNat ++ pad)
    16 pass (by simp)
  have hdrop := uint32At_bytes (bytes 8 ts.toNat ++ bytes 4 pkt.toNat ++ bytes 4 syn.toNat ++ bytes 4 pass.toNat) pad
    20 drop (by simp)
  simp only [List.append_assoc, List.nil_append, Nat.reduceAdd] at hts hpkt hsyn hpass hdrop
  simp only [lambdaEventBytes, List.append_assoc, hts, hpkt, hsyn, hpass, hdrop]

/-- No event the kernel submits is decoded: all are eight bytes too short. -/
theorem decode_refuses_kernel_events (ev : LambdaEvent) :
    decodeLambdaEvent (lambdaEventBytes ev) = .error "short lambda event 24" := by
  unfold decodeLambdaEvent
  rw [lambdaEventBytes_length, if_pos (by decide)]
  rfl

/-- For no event does decoding undo the kernel's encoding. -/
theorem decode_never_undoes_encode (ev : LambdaEvent) : decodeLambdaEvent (lambdaEventBytes ev) ≠ .ok ev := by
  rw [decode_refuses_kernel_events]
  exact nofun

/-- The first event of a quiet node. -/
theorem decode_loses_first_event :
    ¬ decodeLambdaEvent (lambdaEventBytes ⟨1000000, 1024, 0, 1, 0⟩) = .ok ⟨1000000, 1024, 0, 1, 0⟩ := by
  decide

/-! ## The reader -/

/-- `Run`'s loop on the records read: one that is refused is skipped. -/
def drainRing (last : LambdaEvent) : List (List UInt8) → LambdaEvent
  | [] => last
  | rec :: recs =>
    match decodeLambdaEvent rec with
    | .ok ev => drainRing ev recs
    | .error _ => drainRing last recs

def noEvent : LambdaEvent := ⟨0, 0, 0, 0, 0⟩

def kernelLambdaRate (ev : LambdaEvent) : ℚ := if ev.pktCount = 0 then 0 else ev.pktCount.toNat * 100

theorem drainRing_kernel (last : LambdaEvent) (evs : List LambdaEvent) :
    drainRing last (evs.map lambdaEventBytes) = last := by
  induction evs with
  | nil => rfl
  | cons ev evs ih => simp only [List.map_cons, drainRing, decode_refuses_kernel_events, ih]

/-- Whatever packets the XDP program handles, the reader of its ring holds no event, so the
    forecaster's kernel rate is zero for good. -/
theorem reader_stays_empty (m : Xdp.Maps) (as : List Xdp.Arrival) :
    kernelLambdaRate (drainRing noEvent ((exec Xdp.handle m as).2.lambdaRing.map lambdaEventBytes)) = 0 := by
  rw [drainRing_kernel]
  rfl

end EliteTelemetry.Forecaster
