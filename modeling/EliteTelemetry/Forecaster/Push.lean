/-
  EliteTelemetry.Forecaster.Push — the two writers of the policy map: the control loop and
  the federation's push (`forecastPolicyPush` of `pkg/exporter/cmd/server.go`, which
  `newHTTPServer` routes to where there is a token or a runner).

  What the loop writes is held to its range by the functions it comes from (`tick_bounded`).
  A pushed snapshot goes to the map as it was decoded: nothing on that path checks it. So
  every value a run writes is in range exactly when every push it accepted was
  (`written_bounded_iff`).
-/

import EliteTelemetry.Forecaster.Agreement
import EliteTelemetry.Forecaster.ShedRate

namespace EliteTelemetry.Forecaster

open EliteTelemetry.Lib.GoNumbers
open EliteTelemetry.Lib.Machine
open EliteTelemetry.Xdp (PolicyValue XdpStat tierCritical tierDropPpm tierStandard)

/-! ## The push handler -/

structure PushBody where
  fault : Bool
  cause : String
  projected : ℚ
  ewma : ℚ
  overloadFraction : ℚ
  shedPpm : UInt32
  rhoProjected : ℚ
  connRate : ℚ
  deriving DecidableEq, Repr

def PushBody.snapshot (b : PushBody) : Snapshot :=
  { noSnapshot with
    fault := b.fault, cause := .ofLabel b.cause, projected := b.projected, ewma := b.ewma,
    overloadFraction := b.overloadFraction, shedPpm := b.shedPpm, rhoProjected := b.rhoProjected,
    connRate := b.connRate }

structure PushRequest where
  method : String
  /-- The `X-Elite-Policy-Token` header, empty when absent. -/
  token : String
  /-- What the decoder makes of the body: its error, or the value. -/
  body : Except String PushBody

structure Server where
  policyPushToken : String
  runner : Option Runner
  /-- `ELITE_POLICY_PIN`. -/
  envPin : String

structure Response where
  status : Nat
  text : String
  deriving DecidableEq, Repr

namespace Server

/-- `newHTTPServer` has a route for the push; without one the page is not found. -/
def routed (s : Server) : Bool := s.policyPushToken ≠ "" || s.runner.isSome

def accepts (s : Server) (req : PushRequest) : Except Response PushBody :=
  if s.routed = false then .error ⟨404, "404 page not found"⟩
  else if req.method ≠ "POST" then .error ⟨405, "method not allowed"⟩
  else if s.policyPushToken ≠ "" ∧ req.token ≠ s.policyPushToken then .error ⟨403, "forbidden"⟩
  else req.body.mapError (⟨400, ·⟩)

/-- Where a push goes: the runner's pin and device, or the environment's pin. -/
def pushTarget (s : Server) : String × UInt32 :=
  match s.runner with
  | some r => (r.cfg.policyMapPin, r.cfg.redirectIfindex)
  | none => (s.envPin, 0)

def push (cv : Conv) (s : Server) (req : PushRequest) (pin : PinMap) : Response × Option PolicyValue :=
  match s.accepts req with
  | .error resp => (resp, none)
  | .ok body =>
    if s.runner.isNone ∧ s.envPin = "" then (⟨503, "no runner"⟩, none)
    else
      match syncPolicyToBPFMap cv s.pushTarget.1 pin body.snapshot s.pushTarget.2 with
      | (some err, v) => (⟨500, err⟩, v)
      | (none, v) => (⟨200, "ok"⟩, v)

def afterPush (s : Server) (req : PushRequest) (pin : PinMap) : Server :=
  match s.accepts req with
  | .ok _ =>
    if s.pushTarget.1 ≠ "" ∧ pin.loads then
      { s with runner := s.runner.map fun r => { r with policySeq := r.policySeq + 1 } }
    else s
  | .error _ => s

end Server

/-! ## Runs -/

inductive PolicyEvent where
  | tick (t : Tick)
  | push (req : PushRequest) (pin : PinMap)

/-- The value an event writes to the policy map. -/
def policyStep (cv : Conv) (s : Server) : PolicyEvent → Option PolicyValue × Server
  | .tick t =>
    match s.runner with
    | some r => ((r.tick cv t).1.value, { s with runner := some (r.tick cv t).2 })
    | none => (none, s)
  | .push req pin => ((s.push cv req pin).2, s.afterPush req pin)

/-- Both rates are fractions of a million, and the kernel drops at most a twentieth of the
    critical and a quarter of the standard tier for it. -/
def Bounded (v : PolicyValue) : Prop :=
  v.shedPpm ≤ 1000000 ∧ v.overloadPpm ≤ 1000000 ∧ tierDropPpm v tierCritical ≤ 50000 ∧
    tierDropPpm v tierStandard ≤ 250000

theorem bounded_iff (v : PolicyValue) : Bounded v ↔ v.shedPpm ≤ 1000000 ∧ v.overloadPpm ≤ 1000000 := by
  constructor
  · intro h
    exact ⟨h.1, h.2.1⟩
  · intro h
    have hshed := h.1
    rw [UInt32.le_iff_toNat_le] at hshed
    have hshed : v.shedPpm.toNat ≤ 1000000 := hshed
    refine ⟨h.1, h.2, ?_, ?_⟩
    · simp only [tierDropPpm, if_true]
      split
      · decide
      · rw [UInt32.le_iff_toNat_le, UInt32.toNat_div]
        simp only [UInt32.reduceToNat]
        omega
    · simp only [tierDropPpm, if_true, show tierStandard ≠ tierCritical by decide, if_false]
      split
      · decide
      · rw [UInt32.le_iff_toNat_le, UInt32.toNat_div]
        simp only [UInt32.reduceToNat]
        omega

/-- A fault without a rate is written as all of it: what is written is in range when the
    snapshot's rate is. -/
theorem policyValue_bounded (cv : Conv) (snap : Snapshot) (ifindex : UInt32) :
    Bounded (policyValue cv snap ifindex) ↔
      snap.shedPpm ≤ 1000000 ∧ cv.u32 (snap.overloadFraction * 1000000) ≤ 1000000 := by
  have hscale : ((ppmScale : ℕ) : ℚ) = 1000000 := by norm_num [ppmScale]
  rw [bounded_iff]
  simp only [policyValue, hscale]
  refine and_congr_left' ?_
  split
  · rename_i h
    rw [h.1]
    decide
  · exact Iff.rfl

/-! ## The control loop -/

theorem computeOverloadFraction_range (rho target : ℚ) :
    0 ≤ computeOverloadFraction rho target ∧ computeOverloadFraction rho target ≤ 1 := by
  simp only [computeOverloadFraction]
  generalize (if target ≤ 0 ∨ 1 ≤ target then 7 / 10 else target) = tgt
  generalize (rho - tgt) / (1 - tgt) = o
  split
  · norm_num
  · split_ifs <;> constructor <;> linarith

theorem fusedOverload_range (lat : Snapshot) {o : ℚ} (h0 : 0 ≤ o) (h1 : o ≤ 1) :
    0 ≤ fusedOverload lat o ∧ fusedOverload lat o ≤ 1 := by
  have hlat := computeOverloadFraction_range (lat.projected / (lat.ewma + 1 / 1000000000)) 1
  simp only [fusedOverload]
  split
  · split_ifs <;> constructor <;> linarith
  · exact ⟨h0, h1⟩

theorem shedPPM_le (cv : Conv) (o gamma : ℚ) : (shedPPM cv o gamma).toNat ≤ 1000000 := by
  by_cases h : o ≤ 0
  · simp [shedPPM, h]
  · rw [shedPPM_toNat cv (not_le.mp h)]
    exact Nat.min_le_left _ _

def InRange (snap : Snapshot) : Prop :=
  snap.shedPpm ≤ 1000000 ∧ 0 ≤ snap.overloadFraction ∧ snap.overloadFraction ≤ 1

theorem policyValue_inRange (cv : Conv) {snap : Snapshot} (h : InRange snap) (ifindex : UInt32) :
    Bounded (policyValue cv snap ifindex) := by
  obtain ⟨hshed, h0, h1⟩ := h
  refine (policyValue_bounded cv snap ifindex).mpr ⟨hshed, ?_⟩
  have hfloor : ⌊snap.overloadFraction * 1000000⌋ ≤ 1000000 := by
    have hle : ⌊snap.overloadFraction * 1000000⌋ ≤ ⌊(1000000 : ℚ)⌋ := Int.floor_le_floor (by linarith)
    simpa using hle
  rw [UInt32.le_iff_toNat_le, u32_floor cv (by linarith) (by linarith)]
  simp only [UInt32.reduceToNat]
  omega

theorem overloaded_inRange (cv : Conv) (gamma : ℚ) (ctrl : Bool) (stats : XdpStat) (snap : Snapshot)
    {tr : TrafficSnapshot} (h0 : 0 ≤ tr.overload) (h1 : tr.overload ≤ 1) :
    InRange (overloaded cv gamma ctrl stats snap tr) := by
  have hfused := fusedOverload_range snap h0 h1
  have hshed := shedPPM_le cv (fusedOverload snap tr.overload) gamma
  simp only [overloaded]
  split
  · refine ⟨?_, hfused⟩
    rw [UInt32.le_iff_toNat_le]
    show (adjust cv (shedPPM cv (fusedOverload snap tr.overload) gamma) stats).toNat ≤ 1000000
    rw [adjust_toNat]
    split <;> omega
  · refine ⟨?_, hfused⟩
    rw [UInt32.le_iff_toNat_le]
    exact hshed

theorem observeTraffic_range {r : Runner} {t : Tick} {te : TrafficEngine} {o : TrafficSnapshot × TrafficEngine}
    (h : r.observeTraffic t te = some o) : 0 ≤ o.1.overload ∧ o.1.overload ≤ 1 := by
  unfold Runner.observeTraffic at h
  split at h
  · cases h
    exact computeOverloadFraction_range _ _
  · obtain ⟨conn, -, rfl⟩ := Option.map_eq_some_iff.mp h
    exact computeOverloadFraction_range _ _

theorem measure_inRange (cv : Conv) (r : Runner) (t : Tick) : InRange (r.measure cv t).1 := by
  have hcalm : InRange (Runner.blame (r.latency t).1 (blameCause (r.signals t) r.cfg.hardDropSeconds)) :=
    ⟨UInt32.le_iff_toNat_le.mpr (Nat.zero_le _), le_refl _, zero_le_one⟩
  simp only [Runner.measure]
  cases hte : r.traffic with
  | none => exact hcalm
  | some te =>
    show InRange ((Option.map _ (r.observeTraffic t te)).getD _)
    cases hobs : r.observeTraffic t te with
    | none => exact hcalm
    | some o =>
      obtain ⟨h0, h1⟩ := observeTraffic_range hobs
      exact overloaded_inRange cv _ _ _ _ h0 h1

theorem tick_bounded (cv : Conv) (r : Runner) (t : Tick) {v : PolicyValue} (h : (r.tick cv t).1.value = some v) :
    Bounded v := by
  have h : (syncPolicyToBPFMap cv _ t.pin (r.measure cv t).1 _).2 = some v := h
  rw [sync_written h]
  exact policyValue_inRange cv (measure_inRange cv r t) _

/-! ## The push -/

/-- A push that reaches the map carries rates in range. -/
def Contained (cv : Conv) (s : Server) : PolicyEvent → Prop
  | .tick _ => True
  | .push req pin =>
    ∀ body, s.accepts req = .ok body → s.pushTarget.1 ≠ "" → pin = .opens →
      body.shedPpm ≤ 1000000 ∧ cv.u32 (body.overloadFraction * 1000000) ≤ 1000000

/-- A push writes its snapshot as it is, where the handler accepts it and the map opens. -/
theorem push_written (cv : Conv) (s : Server) (req : PushRequest) (pin : PinMap) (v : PolicyValue) :
    (s.push cv req pin).2 = some v ↔
      ∃ body, s.accepts req = .ok body ∧ s.pushTarget.1 ≠ "" ∧ pin = .opens ∧
        v = policyValue cv body.snapshot s.pushTarget.2 := by
  unfold Server.push
  cases hacc : s.accepts req with
  | error resp => simp
  | ok body =>
    simp only [Except.ok.injEq, exists_eq_left']
    by_cases hnone : s.runner.isNone ∧ s.envPin = ""
    · have hpath : s.pushTarget.1 = "" := by
        unfold Server.pushTarget
        rw [Option.isNone_iff_eq_none.mp hnone.1]
        exact hnone.2
      simp [hnone, hpath]
    · rw [if_neg hnone]
      by_cases hpath : s.pushTarget.1 = ""
      · simp [syncPolicyToBPFMap, hpath]
      · cases pin <;> simp [syncPolicyToBPFMap, hpath, eq_comm]

theorem policyStep_bounded_iff (cv : Conv) (s : Server) (e : PolicyEvent) :
    (∀ v, (policyStep cv s e).1 = some v → Bounded v) ↔ Contained cv s e := by
  cases e with
  | tick t =>
    refine iff_of_true ?_ trivial
    intro v hv
    unfold policyStep at hv
    cases hr : s.runner with
    | none => simp [hr] at hv
    | some r =>
      rw [hr] at hv
      exact tick_bounded cv r t hv
  | push req pin =>
    show (∀ v, (s.push cv req pin).2 = some v → Bounded v) ↔ _
    simp only [push_written]
    constructor
    · intro h body hacc hpath hpin
      exact (policyValue_bounded cv body.snapshot _).mp (h _ ⟨body, hacc, hpath, hpin, rfl⟩)
    · intro h v hv
      obtain ⟨body, hacc, hpath, hpin, rfl⟩ := hv
      exact (policyValue_bounded cv body.snapshot _).mpr (h body hacc hpath hpin)

/-- In any run of ticks and pushes, every value written to the policy map has its rates in
    range, and with them the kernel its ratios, exactly when every push that was accepted
    and reached the map carried rates in range. -/
theorem written_bounded_iff (cv : Conv) (s : Server) (es : List PolicyEvent) :
    (∀ w ∈ (exec (policyStep cv) s es).1, ∀ v, w = some v → Bounded v) ↔
      along (policyStep cv) (Contained cv) s es :=
  exec_forall_iff (policyStep_bounded_iff cv) s es

/-! ## A push out of range -/

def pushServer : Server := ⟨"", some (newRunner trafficConfig true false), ""⟩

def pushBody (shed : UInt32) : PushRequest :=
  ⟨"POST", "", .ok ⟨true, "network", 0, 0, 1, shed, 0, 0⟩⟩

/-- `{"fault":true,"cause":"network","overload_fraction":1,"shed_ppm":2000000}`: a tenth of the
    critical tier is dropped, half of the standard one. -/
theorem push_writes_out_of_range :
    ¬ ∀ w ∈ (exec (policyStep saturating) pushServer [.push (pushBody 2000000) .opens]).1, ∀ v, w = some v → Bounded v := by
  intro h
  have hb := h _ List.mem_cons_self _ rfl
  exact absurd hb.1 (by decide)

end EliteTelemetry.Forecaster
