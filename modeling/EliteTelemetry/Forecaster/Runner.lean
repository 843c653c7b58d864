/-
  EliteTelemetry.Forecaster.Runner — the forecaster's control loop (`pkg/forecaster/runner.go`).

  A tick comes with everything it reads: the scrapes, the XDP counters, the kernel's last
  event, the clocks, and how the policy map and the event shedder answer. It publishes one
  snapshot: in the collector's buffer, as a decision, as a policy record and as the value of
  the policy map.
-/

import EliteTelemetry.Forecaster.KernelSignal
import EliteTelemetry.Forecaster.PolicySync

namespace EliteTelemetry.Forecaster

open EliteTelemetry.Lib.GoNumbers
open EliteTelemetry.Xdp (LambdaEvent PolicyValue XdpStat)

/-! ## Configuration -/

structure Config where
  interval : Duration
  horizon : Duration
  window : ℤ
  alpha : ℚ
  hardDropSeconds : ℚ
  accThreshold : ℚ
  semi : Bool
  semiCooldown : Duration
  llc : Bool
  readPsi : Bool
  decisionPath : String
  policyPath : String
  policyMapPin : String
  weights : FuseWeights
  trafficEnabled : Bool
  rhoTarget : ℚ
  muEst : ℚ
  shedGamma : ℚ
  redirectIfindex : UInt32
  kernelRingbuf : Bool
  deriving DecidableEq, Repr

def Config.filled (cfg : Config) : Config :=
  { cfg with
    interval := orPositive cfg.interval second, horizon := orPositive cfg.horizon (5 * second),
    window := orPositive cfg.window 8, alpha := orPositive cfg.alpha (3 / 10),
    hardDropSeconds := orPositive cfg.hardDropSeconds (1 / 10),
    accThreshold := orPositive cfg.accThreshold (1 / 1000),
    semiCooldown := orPositive cfg.semiCooldown (60 * second),
    weights := if cfg.weights.network = 0 ∧ cfg.weights.llc = 0 ∧ cfg.weights.psi = 0 then defaultFuseWeights
      else cfg.weights,
    decisionPath := if cfg.decisionPath = "" then "/var/lib/elite/predict-decision.json" else cfg.decisionPath,
    rhoTarget := orPositive cfg.rhoTarget (7 / 10), muEst := orPositive cfg.muEst 1000,
    shedGamma := orPositive cfg.shedGamma 2 }

structure Runner where
  cfg : Config
  engine : KinematicTracker
  traffic : Option TrafficEngine
  /-- There is a shed controller; its own fields are read by nothing. -/
  shedCtrl : Bool
  muEst : Option MuEstimator
  kernelSig : Bool
  shedder : Bool
  snaps : Vector Snapshot 2
  idx : Fin 2
  faults : Nat
  shedding : Bool
  restoreAfter : Option Time
  prevFault : Bool
  policySeq : UInt64
  deriving DecidableEq, Repr

def noSnapshot : Snapshot := ⟨0, 0, 0, 0, 0, false, .other "", 0, 0, 0, 0, 0⟩

/-- `NewRunner`, enabled; `ring`: the kernel's ring could be opened. -/
def newRunner (cfg : Config) (shedder ring : Bool) : Runner :=
  let cfg := cfg.filled
  { cfg := cfg,
    engine := newKinematicTracker
      { alpha := cfg.alpha, window := cfg.window, horizon := cfg.horizon, hardDrop := cfg.hardDropSeconds,
        accThreshold := cfg.accThreshold, sampleInterval := cfg.interval, useRingLS := false },
    traffic :=
      if cfg.trafficEnabled then
        some (newTrafficEngine
          { horizon := cfg.horizon, rhoTarget := cfg.rhoTarget, muEst := cfg.muEst, gamma := cfg.shedGamma,
            sampleInterval := cfg.interval, window := cfg.window, alpha := cfg.alpha,
            accThreshold := cfg.accThreshold })
      else none,
    shedCtrl := cfg.policyMapPin ≠ "",
    muEst := if cfg.policyMapPin ≠ "" then some (newMuEstimator cfg.muEst) else none,
    kernelSig := cfg.policyMapPin ≠ "" ∧ cfg.kernelRingbuf ∧ ring, shedder := shedder,
    snaps := #v[noSnapshot, noSnapshot], idx := 0, faults := 0, shedding := false, restoreAfter := none,
    prevFault := false, policySeq := 0 }

/-! ## One tick -/

structure Tick where
  now : Time
  /-- The scraped latency; none on an error. -/
  net : Option ℚ
  llcMissRate : Option ℚ
  psiAvg10 : Option ℚ
  stats : XdpStat
  lambda : LambdaEvent
  /-- The scraped connection count; none on an error. -/
  conn : Option ℚ
  wallNs : UInt64
  pin : PinMap
  shedOk : Bool
  restoreOk : Bool
  deriving DecidableEq, Repr

structure Published where
  snap : Snapshot
  decision : Option DecisionBus
  record : Option (List UInt8)
  value : Option PolicyValue
  /-- The shedder was called, and answered so. -/
  shed : Option Bool
  restored : Option Bool
  deriving DecidableEq, Repr

namespace Runner

def signals (r : Runner) (t : Tick) : SignalVector :=
  ⟨t.net.getD 0, if r.cfg.llc then t.llcMissRate.map (mapLLCMissRate · r.cfg.hardDropSeconds) else none,
    if r.cfg.readPsi then t.psiAvg10.map (mapPSI · r.cfg.hardDropSeconds) else none⟩

def latency (r : Runner) (t : Tick) : Snapshot × KinematicTracker :=
  engineObserve r.engine (fuseScalar (r.signals t) r.cfg.weights) t.now

def blame (snap : Snapshot) (cause : Cause) : Snapshot :=
  { snap with cause := if snap.fault then (if cause = .none then .network else cause) else .none }

def xdpStats (r : Runner) (t : Tick) : XdpStat := if r.cfg.policyMapPin = "" then ⟨0, 0, 0⟩ else t.stats

def kernelRate (r : Runner) (t : Tick) : ℚ :=
  if r.kernelSig ∧ 0 < t.lambda.pktCount then kernelLambdaRate t.lambda else 0

/-- What the traffic engine sees: the kernel's rate, or else the scraped connections. -/
def observeTraffic (r : Runner) (t : Tick) (te : TrafficEngine) : Option (TrafficSnapshot × TrafficEngine) :=
  if 0 < r.kernelRate t then some (te.observeLambda (r.kernelRate t) t.now)
  else t.conn.map (te.observeConn · t.now)

end Runner

def overloaded (cv : Conv) (gamma : ℚ) (shedCtrl : Bool) (stats : XdpStat) (snap : Snapshot)
    (traffic : TrafficSnapshot) : Snapshot :=
  let o := fuseOverload cv snap traffic gamma
  let snap := applyOverload snap o
  if shedCtrl ∧ 0 < o.shedPpm then { snap with shedPpm := adjust cv o.shedPpm stats } else snap

theorem overloaded_fault (cv : Conv) (gamma : ℚ) (ctrl : Bool) (stats : XdpStat) (snap : Snapshot)
    (tr : TrafficSnapshot) : (overloaded cv gamma ctrl stats snap tr).fault = (snap.fault || tr.preFault) := by
  have h : (applyOverload snap (fuseOverload cv snap tr gamma)).fault = (snap.fault || tr.preFault) := by
    simp only [applyOverload, fuseOverload]
    by_cases hf : snap.fault = true
    · simp [hf]
    · simp [hf]
  simp only [overloaded]
  split
  · exact h
  · exact h

theorem overloaded_cause (cv : Conv) (gamma : ℚ) (ctrl : Bool) (stats : XdpStat) (snap : Snapshot)
    (tr : TrafficSnapshot) : (overloaded cv gamma ctrl stats snap tr).cause = snap.cause := by
  simp only [overloaded]
  split
  · rfl
  · rfl

namespace Runner

def measure (cv : Conv) (r : Runner) (t : Tick) : Snapshot × Runner :=
  let lat := r.latency t
  let snap := blame lat.1 (blameCause (r.signals t) r.cfg.hardDropSeconds)
  let r := { r with engine := lat.2 }
  match r.traffic with
  | none => (snap, r)
  | some te =>
    let obs := r.observeTraffic t te
    let snap := (obs.map fun o => overloaded cv r.cfg.shedGamma r.shedCtrl (r.xdpStats t) snap o.1).getD snap
    let te := (obs.map (·.2)).getD te
    let mu := r.muEst.map (·.observe (r.xdpStats t) snap.overloadFraction t.now)
    (snap, { r with traffic := some ((mu.map (te.setMuEst ·.muEst)).getD te), muEst := mu })

def publish (cv : Conv) (r : Runner) (t : Tick) (snap : Snapshot) : Published × Runner :=
  let next := 1 - r.idx
  let recordSeq := if r.cfg.policyPath = "" then r.policySeq else r.policySeq + 1
  let synced := r.cfg.policyMapPin ≠ "" ∧ t.pin.loads
  (⟨snap, if r.cfg.decisionPath = "" then none else some (decision snap),
    if r.cfg.policyPath = "" then none else some (policyRecord cv recordSeq t.wallNs snap),
    (syncPolicyToBPFMap cv r.cfg.policyMapPin t.pin snap r.cfg.redirectIfindex).2, none, none⟩,
    { r with
      snaps := r.snaps.set next snap, idx := next, policySeq := if synced then recordSeq + 1 else recordSeq })

/-- A rising fault sheds event probes in semi mode; they are restored after the cooldown. -/
def actOnFault (r : Runner) (t : Tick) (p : Published) : Published × Runner :=
  let rising := p.snap.fault ∧ ¬ r.prevFault
  let r := { r with faults := if rising then r.faults + 1 else r.faults, prevFault := p.snap.fault }
  let sheds := rising ∧ r.cfg.semi ∧ r.shedder ∧ shouldShedEvents p.snap.cause ∧ ¬ r.shedding
  let r :=
    if sheds then
      if t.shedOk then { r with shedding := true, restoreAfter := some (t.now + r.cfg.semiCooldown) }
      else { r with shedding := false, restoreAfter := none }
    else r
  let restores := r.shedding ∧ r.restoreAfter.any (· < t.now)
  ({ p with
      shed := if sheds then some t.shedOk else none, restored := if restores then some t.restoreOk else none },
    if restores ∧ t.restoreOk then { r with shedding := false, restoreAfter := none } else r)

def tick (cv : Conv) (r : Runner) (t : Tick) : Published × Runner :=
  let m := r.measure cv t
  let p := m.2.publish cv t m.1
  p.2.actOnFault t p.1

end Runner

end EliteTelemetry.Forecaster
