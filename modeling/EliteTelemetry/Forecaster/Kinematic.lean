/-
  EliteTelemetry.Forecaster.Kinematic — smoothing and projection of one signal
  (`ewma.go`, `ring.go`, `kinematic.go` of `pkg/forecaster`).

  A tracker smooths its samples, takes a velocity (of the smoothed value, or the least
  squares slope of the ring of samples) and an acceleration, and projects the value to its
  horizon where both point up.
-/

import EliteTelemetry.Lib.GoNumbers

namespace EliteTelemetry.Forecaster

open EliteTelemetry.Lib.GoNumbers

/-! ## EWMA -/

structure Ewma where
  alpha : ℚ
  value : ℚ
  init : Bool
  deriving DecidableEq, Repr

def newEwma (alpha : ℚ) : Ewma := ⟨if alpha ≤ 0 then 3 / 10 else if 1 < alpha then 1 else alpha, 0, false⟩

def Ewma.update (e : Ewma) (x : ℚ) : Ewma :=
  if e.init then { e with value := e.alpha * x + (1 - e.alpha) * e.value } else { e with value := x, init := true }

/-! ## The ring of samples -/

def maxRingCap : Nat := 16

structure Ring where
  buf : Vector ℚ maxRingCap
  cap : Nat
  len : Nat
  head : Nat
  capLe : cap ≤ maxRingCap
  lenLe : len ≤ cap
  headLt : head < cap
  deriving DecidableEq, Repr

def newRing (n : ℤ) : Ring where
  buf := Vector.replicate maxRingCap 0
  cap := max 2 (min n.toNat maxRingCap)
  len := 0
  head := 0
  capLe := by simp only [maxRingCap]; omega
  lenLe := Nat.zero_le _
  headLt := by simp only [maxRingCap]; omega

namespace Ring

def push (r : Ring) (v : ℚ) : Ring where
  buf := r.buf.set r.head v (Nat.lt_of_lt_of_le r.headLt r.capLe)
  cap := r.cap
  len := if r.len < r.cap then r.len + 1 else r.len
  head := (r.head + 1) % r.cap
  capLe := r.capLe
  lenLe := by split <;> have := r.lenLe <;> omega
  headLt := Nat.mod_lt _ (Nat.zero_lt_of_lt r.headLt)

def nth (r : Ring) (i : Nat) : ℚ :=
  r.buf.get ⟨((if r.len = r.cap then r.head else 0) + i) % r.cap,
    Nat.lt_of_lt_of_le (Nat.mod_lt _ (Nat.zero_lt_of_lt r.headLt)) r.capLe⟩

def sums (r : Ring) : Nat → ℚ × ℚ × ℚ × ℚ
  | 0 => (0, 0, 0, 0)
  | i + 1 =>
    let s := r.sums i
    (s.1 + i, s.2.1 + r.nth i, s.2.2.1 + i * r.nth i, s.2.2.2 + i * i)

def velocityLS (r : Ring) (sampleIntervalSec : ℚ) : ℚ :=
  let n := r.len
  if n < 2 then 0
  else
    let s := r.sums n
    let denom := n * s.2.2.2 - s.1 * s.1
    if denom = 0 then 0
    else (n * s.2.2.1 - s.1 * s.2.1) / denom / (if sampleIntervalSec ≤ 0 then 1 else sampleIntervalSec)

end Ring

/-! ## The tracker -/

structure KinematicConfig where
  alpha : ℚ
  window : ℤ
  horizon : Duration
  hardDrop : ℚ
  accThreshold : ℚ
  sampleInterval : Duration
  useRingLS : Bool
  deriving DecidableEq, Repr

structure KinematicSnapshot where
  raw : ℚ
  ewma : ℚ
  velocity : ℚ
  acceleration : ℚ
  projected : ℚ
  fault : Bool
  samples : Nat
  deriving DecidableEq, Repr

structure KinematicTracker where
  cfg : KinematicConfig
  ring : Ring
  ewma : Ewma
  prevEwma : ℚ
  prevVel : ℚ
  havePrev : Bool
  lastAt : Time
  deriving DecidableEq, Repr

def orDefault {α : Type} [Zero α] [DecidableEq α] (x dflt : α) : α := if x = 0 then dflt else x

def newKinematicTracker (cfg : KinematicConfig) : KinematicTracker :=
  let cfg := { cfg with
    alpha := orDefault cfg.alpha (3 / 10), window := orDefault cfg.window 8,
    horizon := orDefault cfg.horizon (5 * second), hardDrop := orDefault cfg.hardDrop (1 / 10),
    accThreshold := orDefault cfg.accThreshold (1 / 1000),
    sampleInterval := orDefault cfg.sampleInterval second }
  ⟨cfg, newRing cfg.window, newEwma cfg.alpha, 0, 0, false, 0⟩

namespace KinematicTracker

/-- Seconds since the last sample, the sample interval where the clock did not advance. -/
def elapsed (k : KinematicTracker) (now : Time) : ℚ :=
  let dt := seconds (timeSub now k.lastAt)
  if dt ≤ 0 then
    let dt := seconds k.cfg.sampleInterval
    if dt ≤ 0 then 1 else dt
  else dt

def derivatives (k : KinematicTracker) (ring : Ring) (s : ℚ) (now : Time) : ℚ × ℚ :=
  if k.havePrev then
    let dt := k.elapsed now
    let vel := if k.cfg.useRingLS ∧ 3 ≤ ring.len then ring.velocityLS dt else (s - k.prevEwma) / dt
    (vel, (vel - k.prevVel) / dt)
  else (0, 0)

def project (k : KinematicTracker) (s vel acc : ℚ) : ℚ × Bool :=
  let h := seconds k.cfg.horizon
  if k.havePrev ∧ 0 < vel ∧ k.cfg.accThreshold < acc then
    let projected := s + vel * h + 1 / 2 * acc * h * h
    (projected, k.cfg.hardDrop ≤ projected ∧ k.cfg.hardDrop * (3 / 10) ≤ s)
  else if k.cfg.hardDrop ≤ s then (s, true)
  else (s, false)

def observe (k : KinematicTracker) (raw : ℚ) (now : Time) : KinematicSnapshot × KinematicTracker :=
  let ring := k.ring.push raw
  let ewma := k.ewma.update raw
  let s := ewma.value
  let d := k.derivatives ring s now
  let p := k.project s d.1 d.2
  (⟨raw, s, d.1, d.2, p.1, p.2, ring.len⟩,
    { k with ring := ring, ewma := ewma, prevVel := d.1, prevEwma := s, lastAt := now, havePrev := true })

end KinematicTracker

end EliteTelemetry.Forecaster
