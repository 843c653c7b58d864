/-
  EliteTelemetry.Forecaster.Fuse — the signals of one tick: the fused scalar and the cause
  blamed for it (`pkg/forecaster/fuse.go`, and the cause codes of `policy_state.go`).
-/

import Mathlib.Algebra.Order.Ring.Rat

namespace EliteTelemetry.Forecaster

inductive Cause where
  | none
  | network
  | llc
  | psi
  | mixed
  | other (label : String)
  deriving DecidableEq, Repr

def Cause.blamed : Cause → Bool
  | .network | .llc | .psi | .mixed => true
  | .none | .other _ => false

def Cause.ofLabel (label : String) : Cause :=
  if label = "none" then .none
  else if label = "network" then .network
  else if label = "llc" then .llc
  else if label = "psi" then .psi
  else if label = "mixed" then .mixed
  else .other label

def causeToPolicyCode : Cause → UInt8
  | .network => 1
  | .llc => 2
  | .psi => 3
  | .mixed => 4
  | .none | .other _ => 0

def policyCodeToCause (code : UInt8) : Cause :=
  if code = 1 then .network else if code = 2 then .llc else if code = 3 then .psi else if code = 4 then .mixed else .none

theorem causeToPolicyCode_eq_zero (c : Cause) : causeToPolicyCode c = 0 ↔ c.blamed = false := by
  cases c <;> simp [causeToPolicyCode, Cause.blamed]

/-- `SignalVector`; a signal that was not scraped is absent. -/
structure SignalVector where
  network : ℚ
  llc : Option ℚ
  psi : Option ℚ
  deriving DecidableEq, Repr

structure FuseWeights where
  network : ℚ
  llc : ℚ
  psi : ℚ
  deriving DecidableEq, Repr

def defaultFuseWeights : FuseWeights := ⟨6 / 10, 25 / 100, 15 / 100⟩

def fuseScalar (v : SignalVector) (w : FuseWeights) : ℚ :=
  let sum := w.network * v.network + (v.llc.map (w.llc * ·)).getD 0 + (v.psi.map (w.psi * ·)).getD 0
  let wt := w.network + (v.llc.map fun _ => w.llc).getD 0 + (v.psi.map fun _ => w.psi).getD 0
  if wt ≤ 0 then v.network else sum / wt

def excess (floor : ℚ) (x : ℚ) : ℚ := if x - floor < 0 then 0 else x - floor

/-- The strongest signal and its excess: the network's, unless another is strictly above. -/
def strongest (nEx lEx pEx : ℚ) : ℚ × Cause :=
  let m := if nEx < lEx then (lEx, Cause.llc) else (nEx, .network)
  if m.1 < pEx then (pEx, .psi) else m

def blameCause (v : SignalVector) (hardDrop : ℚ) : Cause :=
  let floor := hardDrop * (3 / 10)
  let nEx := excess floor v.network
  let lEx := (v.llc.map (excess floor)).getD 0
  let pEx := (v.psi.map (excess floor)).getD 0
  if nEx = 0 ∧ lEx = 0 ∧ pEx = 0 then .none
  else
    let m := strongest nEx lEx pEx
    if m.1 ≤ 0 then .none
    -- mixed if a second signal is above half of the strongest
    else if (m.1 * (1 / 2) < nEx ∧ m.2 ≠ .network) ∨ (m.1 * (1 / 2) < lEx ∧ m.2 ≠ .llc) ∨
        (m.1 * (1 / 2) < pEx ∧ m.2 ≠ .psi) then .mixed
    else m.2

/-- A map into [0, 4 · hardDrop] seconds: the shape of `MapLLCMissRate` and `MapPSI`. -/
def mapSignal (x : ℚ) (scale : ℚ → ℚ) (hardDrop : ℚ) : ℚ :=
  if x ≤ 0 then 0 else if hardDrop * 4 < scale x then hardDrop * 4 else scale x

def mapLLCMissRate (missRate hardDrop : ℚ) : ℚ := mapSignal missRate (fun x => x / 1000000 * hardDrop) hardDrop
def mapPSI (avg10 hardDrop : ℚ) : ℚ := mapSignal avg10 (fun x => x / 100 * hardDrop * 2) hardDrop

def shouldShedEvents (cause : Cause) : Bool := cause = .network ∨ cause = .mixed

theorem strongest_blamed (nEx lEx pEx : ℚ) : (strongest nEx lEx pEx).2.blamed = true := by
  simp only [strongest]
  repeat' split
  all_goals rfl

theorem blameCause_blamed (v : SignalVector) (hardDrop : ℚ) :
    blameCause v hardDrop = .none ∨ (blameCause v hardDrop).blamed = true := by
  simp only [blameCause]
  split
  · exact Or.inl rfl
  · split
    · exact Or.inl rfl
    · split
      · exact Or.inr rfl
      · exact Or.inr (strongest_blamed _ _ _)

end EliteTelemetry.Forecaster
