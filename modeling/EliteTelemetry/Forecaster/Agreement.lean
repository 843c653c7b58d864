/-
  EliteTelemetry.Forecaster.Agreement — a published fault and its cause.

  The latency engine's fault is given a cause before the traffic engine is asked
  (`Runner.blame`: the network where no signal is to blame), and the overload merge may then
  raise a fault of its own, leaving the cause at `none` (`measure_fault`, `measure_cause`). So
  the readers of a run agree on fault and cause exactly when no tick of it has a traffic
  pre-fault without a latency fault (`fault_agrees_with_cause_iff`).
-/

import EliteTelemetry.Forecaster.Runner

namespace EliteTelemetry.Forecaster

open EliteTelemetry.Lib.GoNumbers
open EliteTelemetry.Lib.Machine

/-! ## What the readers see -/

/-- The collector, the decision, the record and the map each show a fault exactly with one
    of the four causes. -/
def Published.Agrees (p : Published) : Prop :=
  (p.snap.fault = true ↔ p.snap.cause.blamed = true) ∧
    (∀ d ∈ p.decision, d.fault = true ↔ d.cause.blamed = true) ∧
    (∀ b ∈ p.record, recordFault b = 1 ↔ recordCause b ≠ 0) ∧
    (∀ v ∈ p.value, v.fault = 1 ↔ v.cause ≠ 0)

instance (p : Published) : Decidable p.Agrees := inferInstanceAs (Decidable (_ ∧ _ ∧ _ ∧ _))

theorem faultByte_iff (snap : Snapshot) :
    ((if snap.fault then 1 else 0 : UInt8) = 1 ↔ causeToPolicyCode snap.cause ≠ 0) ↔
      (snap.fault = true ↔ snap.cause.blamed = true) := by
  rw [Ne, causeToPolicyCode_eq_zero, Bool.not_eq_false]
  cases snap.fault <;> simp

theorem published_agrees_iff (cv : Conv) (r : Runner) (t : Tick) (snap : Snapshot) :
    (r.publish cv t snap).1.Agrees ↔ (snap.fault = true ↔ snap.cause.blamed = true) := by
  unfold Published.Agrees Runner.publish
  constructor
  · intro h
    exact h.1
  · intro h
    refine ⟨h, ?_, ?_, ?_⟩
    · intro d hd
      have hd : (if r.cfg.decisionPath = "" then none else some (decision snap)) = some d := hd
      split at hd
      · cases hd
      · cases hd
        exact h
    · intro b hb
      have hb : (if r.cfg.policyPath = "" then none
        else some (policyRecord cv _ t.wallNs snap)) = some b := hb
      split at hb
      · cases hb
      · cases hb
        rw [policyRecord_fault, policyRecord_cause]
        exact (faultByte_iff snap).mpr h
    · intro v hv
      rw [sync_written hv]
      exact (faultByte_iff snap).mpr h

theorem actOnFault_agrees_iff (r : Runner) (t : Tick) (p : Published) :
    (r.actOnFault t p).1.Agrees ↔ p.Agrees := Iff.rfl

/-! ## One tick -/

namespace Runner

/-- The traffic engine reports a pre-fault at this tick. -/
def preFault (r : Runner) (t : Tick) : Bool := (r.traffic.bind (r.observeTraffic t)).any (·.1.preFault)

def blamed (r : Runner) (t : Tick) : Snapshot :=
  blame (r.latency t).1 (blameCause (r.signals t) r.cfg.hardDropSeconds)

theorem measure_fault (cv : Conv) (r : Runner) (t : Tick) :
    (r.measure cv t).1.fault = ((r.latency t).1.fault || r.preFault t) := by
  unfold preFault
  simp only [measure]
  cases hte : r.traffic with
  | none => simp [blame]
  | some te =>
    show Snapshot.fault ((Option.map _ (r.observeTraffic t te)).getD _) = _
    cases hobs : r.observeTraffic t te with
    | none => simp [blame, hobs]
    | some o =>
      simp only [Option.map_some, Option.getD_some, Option.bind_some, hobs, Option.any_some, overloaded_fault]
      rfl

theorem measure_cause (cv : Conv) (r : Runner) (t : Tick) : (r.measure cv t).1.cause = (r.blamed t).cause := by
  simp only [measure]
  cases hte : r.traffic with
  | none => rfl
  | some te =>
    show Snapshot.cause ((Option.map _ (r.observeTraffic t te)).getD _) = _
    cases hobs : r.observeTraffic t te with
    | none => rfl
    | some o =>
      simp only [Option.map_some, Option.getD_some, overloaded_cause]
      rfl

theorem blamed_cause (r : Runner) (t : Tick) : (r.blamed t).cause.blamed = (r.latency t).1.fault := by
  unfold blamed blame
  cases hf : (r.latency t).1.fault with
  | false => rfl
  | true =>
    rcases blameCause_blamed (r.signals t) r.cfg.hardDropSeconds with h | h
    · simp [h, Cause.blamed]
    · split
      · split
        · rfl
        · exact h
      · contradiction

/-- Where traffic reports a pre-fault, so does the latency a fault. -/
def Backed (r : Runner) (t : Tick) : Prop := r.preFault t = true → (r.latency t).1.fault = true

theorem tick_agrees_iff (cv : Conv) (r : Runner) (t : Tick) : (r.tick cv t).1.Agrees ↔ r.Backed t := by
  unfold tick Backed
  rw [actOnFault_agrees_iff, published_agrees_iff, measure_fault, measure_cause, blamed_cause]
  cases (r.latency t).1.fault <;> cases r.preFault t <;> simp

end Runner

/-- Over any run of ticks, from any runner: every published fault comes with a cause and
    every cause with a fault, for every reader, exactly when no tick has a traffic pre-fault
    without a latency fault. -/
theorem fault_agrees_with_cause_iff (cv : Conv) (r : Runner) (ts : List Tick) :
    (∀ p ∈ (exec (Runner.tick cv) r ts).1, p.Agrees) ↔ along (Runner.tick cv) Runner.Backed r ts :=
  exec_forall_iff (Runner.tick_agrees_iff cv) r ts

/-! ## Traffic alone -/

def trafficConfig : Config :=
  { interval := second, horizon := 0, window := 0, alpha := 0, hardDropSeconds := 0, accThreshold := 0, semi := false,
    semiCooldown := 0, llc := false, readPsi := false, decisionPath := "", policyPath := "/run/elite/policy",
    policyMapPin := "/sys/fs/bpf/elite/policy", weights := ⟨0, 0, 0⟩, trafficEnabled := true, rhoTarget := 0,
    muEst := 0, shedGamma := 0, redirectIfindex := 0, kernelRingbuf := false }

def connTick (n : Nat) (conns : ℚ) : Tick :=
  { now := n * second, net := some 0, llcMissRate := none, psiAvg10 := none, stats := ⟨0, 0, 0⟩, lambda := noEvent,
    conn := some conns, wallNs := 0, pin := .opens, shedOk := true, restoreOk := true }

/-- A hundred thousand connections in one second, no latency: the fault is published without
    a cause. -/
theorem traffic_fault_without_cause :
    ¬ ∀ p ∈ (exec (Runner.tick saturating) (newRunner trafficConfig false false)
      [connTick 1 1000, connTick 2 101000]).1, p.Agrees := by
  decide +kernel

end EliteTelemetry.Forecaster
