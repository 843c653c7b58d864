/-
  EliteTelemetry.Forecaster.Overload — from a latency sample and a connection rate to the
  overload fraction and the shed rate (`engine.go`, `traffic_engine.go`, `overload.go`,
  `shed_controller.go` and `mu_estimator.go` of `pkg/forecaster`).

  Counters read from the XDP maps are 64-bit and wrap; everything else is rational.
-/

import EliteTelemetry.Forecaster.Fuse
import EliteTelemetry.Forecaster.Kinematic
import EliteTelemetry.Xdp.PolicyMap

namespace EliteTelemetry.Forecaster

open EliteTelemetry.Lib.GoNumbers
open EliteTelemetry.Xdp (XdpStat)

def ppmScale : Nat := 1000000

/-! ## The latency engine -/

structure Snapshot where
  raw : ℚ
  ewma : ℚ
  velocity : ℚ
  acceleration : ℚ
  projected : ℚ
  fault : Bool
  cause : Cause
  samples : Nat
  overloadFraction : ℚ
  shedPpm : UInt32
  rhoProjected : ℚ
  connRate : ℚ
  deriving DecidableEq, Repr

def engineObserve (k : KinematicTracker) (raw : ℚ) (now : Time) : Snapshot × KinematicTracker :=
  let kin := k.observe raw now
  (⟨kin.1.raw, kin.1.ewma, kin.1.velocity, kin.1.acceleration, kin.1.projected, kin.1.fault, .none, kin.1.samples,
    0, 0, 0, 0⟩, kin.2)

/-! ## Overload and shed rate -/

def computeOverloadFraction (rhoProj rhoTarget : ℚ) : ℚ :=
  let rhoTarget := if rhoTarget ≤ 0 ∨ 1 ≤ rhoTarget then 7 / 10 else rhoTarget
  if rhoProj ≤ rhoTarget then 0
  else
    let o := (rhoProj - rhoTarget) / (1 - rhoTarget)
    if 1 < o then 1 else if o < 0 then 0 else o

def powLoop (overload : ℚ) (n : ℤ) : ℚ := (· * overload)^[(n - 1).toNat] overload

def shedPPM (cv : Conv) (overload gamma : ℚ) : UInt32 :=
  if overload ≤ 0 then 0
  else
    let gamma := if gamma ≤ 0 then 2 else gamma
    let p := powLoop overload (cv.int gamma) * ppmScale
    if ppmScale < p then .ofNat ppmScale else cv.u32 p

/-! ## The traffic engine -/

structure TrafficConfig where
  horizon : Duration
  rhoTarget : ℚ
  muEst : ℚ
  gamma : ℚ
  sampleInterval : Duration
  window : ℤ
  alpha : ℚ
  accThreshold : ℚ
  deriving DecidableEq, Repr

structure TrafficSnapshot where
  connCount : ℚ
  lambdaEwma : ℚ
  velocity : ℚ
  acceleration : ℚ
  rhoNow : ℚ
  rhoProjected : ℚ
  overload : ℚ
  preFault : Bool
  deriving DecidableEq, Repr

structure TrafficEngine where
  cfg : TrafficConfig
  tracker : KinematicTracker
  prevConn : ℚ
  havePrev : Bool
  lastAt : Time
  deriving DecidableEq, Repr

def orPositive {α : Type} [Zero α] [LE α] [DecidableLE α] (x dflt : α) : α := if x ≤ 0 then dflt else x

theorem orPositive_pos {α : Type} [Zero α] [LinearOrder α] {x dflt : α} (h : 0 < dflt) : 0 < orPositive x dflt := by
  unfold orPositive
  split
  · exact h
  · next hx => exact not_le.mp hx

def newTrafficEngine (cfg : TrafficConfig) : TrafficEngine :=
  let cfg : TrafficConfig :=
    { horizon := orPositive cfg.horizon (5 * second), rhoTarget := orPositive cfg.rhoTarget (7 / 10),
      muEst := orPositive cfg.muEst 1000, gamma := orPositive cfg.gamma 2,
      sampleInterval := orPositive cfg.sampleInterval second, window := orPositive cfg.window 8,
      alpha := orPositive cfg.alpha (3 / 10), accThreshold := orPositive cfg.accThreshold (1 / 1000) }
  { cfg := cfg,
    tracker := newKinematicTracker
      { alpha := cfg.alpha, window := cfg.window, horizon := cfg.horizon, hardDrop := cfg.muEst * cfg.rhoTarget,
        accThreshold := cfg.accThreshold, sampleInterval := cfg.sampleInterval, useRingLS := true },
    prevConn := 0, havePrev := false, lastAt := 0 }

namespace TrafficEngine

def setMuEst (te : TrafficEngine) (mu : ℚ) : TrafficEngine :=
  if mu ≤ 0 then te else { te with cfg := { te.cfg with muEst := mu } }

def observeRate (te : TrafficEngine) (connCount lambda : ℚ) (now : Time) : TrafficSnapshot × TrafficEngine :=
  let kin := te.tracker.observe lambda now
  let mu := if te.cfg.muEst ≤ 0 then 1 else te.cfg.muEst
  let rhoNow := kin.1.ewma / mu
  let rhoProj := kin.1.projected / mu
  (⟨connCount, kin.1.ewma, kin.1.velocity, kin.1.acceleration, rhoNow, rhoProj,
    computeOverloadFraction rhoProj te.cfg.rhoTarget,
    te.cfg.rhoTarget < rhoProj ∧ te.cfg.rhoTarget * (3 / 10) < rhoNow⟩, { te with tracker := kin.2 })

def observeLambda (te : TrafficEngine) (lambda : ℚ) (now : Time) : TrafficSnapshot × TrafficEngine :=
  te.observeRate lambda lambda now

def connLambda (te : TrafficEngine) (connCount : ℚ) (now : Time) : ℚ :=
  if te.havePrev then
    let dt := seconds (timeSub now te.lastAt)
    let dt := if dt ≤ 0 then seconds te.cfg.sampleInterval else dt
    if 0 < dt then (if connCount - te.prevConn < 0 then 0 else connCount - te.prevConn) / dt else 0
  else 0

def observeConn (te : TrafficEngine) (connCount : ℚ) (now : Time) : TrafficSnapshot × TrafficEngine :=
  let lambda := te.connLambda connCount now
  { te with prevConn := connCount, lastAt := now, havePrev := true }.observeRate connCount lambda now

end TrafficEngine

/-! ## Fusing the two -/

structure OverloadSnapshot where
  latency : Snapshot
  traffic : TrafficSnapshot
  overload : ℚ
  shedPpm : UInt32
  combinedFault : Bool
  deriving DecidableEq, Repr

/-- The overload a fault asks for, at least one half. -/
def fusedOverload (lat : Snapshot) (o : ℚ) : ℚ :=
  if lat.fault then
    let latO := computeOverloadFraction (lat.projected / (lat.ewma + 1 / 1000000000)) 1
    let o := if o < latO then latO else o
    if o < 1 / 2 then 1 / 2 else o
  else o

def fuseOverload (cv : Conv) (lat : Snapshot) (traffic : TrafficSnapshot) (gamma : ℚ) : OverloadSnapshot :=
  let o := fusedOverload lat traffic.overload
  ⟨lat, traffic, o, shedPPM cv o gamma, lat.fault || traffic.preFault⟩

def applyOverload (snap : Snapshot) (o : OverloadSnapshot) : Snapshot :=
  { snap with
    overloadFraction := o.overload, shedPpm := o.shedPpm, rhoProjected := o.traffic.rhoProjected,
    connRate := o.traffic.lambdaEwma, fault := if o.combinedFault ∧ ¬ snap.fault then true else snap.fault }

/-! ## Feedback from the XDP counters -/

/-- `ShedController.Adjust`: what it returns and keeps as `lastPPM`. The conversion of nine
    tenths of a 32-bit number never leaves the type. -/
def adjust (cv : Conv) (targetPpm : UInt32) (stats : XdpStat) : UInt32 :=
  if targetPpm = 0 then 0
  else
    let total := stats.pass + stats.drop
    if total < 100 then targetPpm
    else
      let dropRate : ℚ := stats.drop.toNat / total.toNat
      let targetRate : ℚ := targetPpm.toNat / ppmScale
      if targetRate * (6 / 5) < dropRate then
        let adj := cv.u32 (targetPpm.toNat * (9 / 10))
        if adj < targetPpm / 2 then targetPpm / 2 else adj
      else targetPpm

structure MuEstimator where
  lastPass : UInt64
  /-- None before the first reading. -/
  lastAt : Option Time
  muEst : ℚ
  sampleCount : Nat
  deriving DecidableEq, Repr

def minSamples : Nat := 3

def newMuEstimator (floor : ℚ) : MuEstimator := ⟨0, none, orPositive floor 1000, 0⟩

def MuEstimator.observe (m : MuEstimator) (stats : XdpStat) (overload : ℚ) (now : Time) : MuEstimator :=
  match m.lastAt with
  | none => { m with lastPass := stats.pass, lastAt := some now }
  | some lastAt =>
    let dt := seconds (timeSub now lastAt)
    if dt < 1 / 20 then m
    else
      let delta := stats.pass - m.lastPass
      let m := { m with lastPass := stats.pass, lastAt := some now }
      if 1 / 2 < overload ∨ delta = 0 then m
      else
        let rate : ℚ := delta.toNat / dt
        let m := { m with sampleCount := m.sampleCount + 1 }
        if minSamples ≤ m.sampleCount then { m with muEst := 7 / 10 * m.muEst + 3 / 10 * rate } else m

end EliteTelemetry.Forecaster
