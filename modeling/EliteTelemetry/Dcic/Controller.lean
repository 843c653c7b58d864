/-
  EliteTelemetry.Dcic.Controller — the quota controller (`pkg/dcic/controller.go`,
  `types.go`): `NewController`, `Observe` and `SetMode`.

  Every epoch brings a noise sample. Noise at or above the trip, in the sample or in its
  average, takes one step off the best-effort quota; enough quiet epochs give one step
  back. Both wait out a dwell since the last change, and only the modes enforce and advise
  change the quota. Nothing here depends on what the noise is: it may be of any type with
  the operations the code uses on floats, without a law for any of them.

  `int` is a 64-bit machine integer. `Shrinks` and `Reclaims` say, of the state before an
  epoch and of its sample, which way the quota will go; `observe_shrinks`,
  `observe_reclaims` and `observe_idle` what the epoch then does to it. A shrink cannot
  wrap: the quota and the floor are positive. A reclaim adds the step before it compares
  with the ceiling, so a step near the end of the type wraps to a negative quota, below
  every floor. `quota_regular_iff` says that this is all that can go wrong in a run.
-/

import EliteTelemetry.Lib.GoNumbers
import EliteTelemetry.Lib.Machine

namespace EliteTelemetry.Dcic

open EliteTelemetry.Lib.GoNumbers EliteTelemetry.Lib.Machine

/-! ## Configuration -/

/-- `Config.Mode`: the three modes, the empty string, and any other one. -/
inductive Mode where
  | unset
  | observe
  | advise
  | enforce
  | other (text : String)
  deriving DecidableEq, Repr

def Mode.acts (m : Mode) : Bool := m == .enforce || m == .advise

def trackSoft : String := "A-soft"
def trackHard : String := "B-hard"

structure Config (F : Type) where
  mode : Mode
  track : String
  interval : Duration
  hardDrop : F
  alpha : F
  window : Int64
  minDwell : Duration
  slackEpochs : Int64
  beQuotaPct : Int64
  beQuotaFloor : Int64
  beQuotaCeil : Int64
  stepPct : Int64
  deriving DecidableEq, Repr

section Floats

variable {F : Type} [OfScientific F]

def defaultConfig : Config F where
  mode := .observe
  track := trackSoft
  interval := second
  hardDrop := 0.05
  alpha := 0.3
  window := 8
  minDwell := 3 * second
  slackEpochs := 5
  beQuotaPct := 100
  beQuotaFloor := 10
  beQuotaCeil := 100
  stepPct := 10

variable [LE F] [DecidableLE F]

def Config.filled (cfg : Config F) : Config F :=
  let d : Config F := defaultConfig
  { mode := if cfg.mode = .unset then .observe else cfg.mode
    track := if cfg.track = "" then trackSoft else cfg.track
    interval := if cfg.interval ≤ 0 then d.interval else cfg.interval
    hardDrop := if cfg.hardDrop ≤ 0.0 then d.hardDrop else cfg.hardDrop
    alpha := if cfg.alpha ≤ 0.0 then d.alpha else cfg.alpha
    window := if cfg.window ≤ 0 then d.window else cfg.window
    minDwell := if cfg.minDwell ≤ 0 then d.minDwell else cfg.minDwell
    slackEpochs := if cfg.slackEpochs ≤ 0 then d.slackEpochs else cfg.slackEpochs
    beQuotaPct := if cfg.beQuotaPct ≤ 0 then d.beQuotaPct else cfg.beQuotaPct
    beQuotaFloor := if cfg.beQuotaFloor ≤ 0 then d.beQuotaFloor else cfg.beQuotaFloor
    beQuotaCeil := if cfg.beQuotaCeil ≤ 0 then d.beQuotaCeil else cfg.beQuotaCeil
    stepPct := if cfg.stepPct ≤ 0 then d.stepPct else cfg.stepPct }

/-! ## The average -/

structure Ewma (F : Type) where
  alpha : F
  value : F
  init : Bool
  deriving DecidableEq, Repr

variable [LT F] [DecidableLT F] [Add F] [Sub F] [Mul F]

def newEWMA (alpha : F) : Ewma F :=
  let alpha := if alpha ≤ 0.0 then 0.3 else alpha
  let alpha := if 1.0 < alpha then 1.0 else alpha
  { alpha := alpha, value := 0.0, init := false }

def Ewma.update (e : Ewma F) (x : F) : Ewma F :=
  if e.init = false then { e with value := x, init := true }
  else { e with value := e.alpha * x + (1.0 - e.alpha) * e.value }

end Floats

/-! ## The controller -/

inductive Action where
  | none
  | shrinkBe
  | reclaimBe
  | adviseShrinkBe
  | adviseReclaimBe
  | observeWouldShrinkBe
  | observeWouldReclaimBe
  deriving DecidableEq, Repr

inductive Reason where
  | none
  | noiseTrip
  | slack
  | dwellOrNoop
  deriving DecidableEq, Repr

structure Decision where
  action : Action
  beQuotaPct : Int64
  reason : Reason
  fault : Bool
  deriving DecidableEq, Repr

structure Snapshot (F : Type) where
  noiseRaw : F
  noiseEWMA : F
  pressure : F
  fault : Bool
  beQuotaPct : Int64
  lastAction : Option Action
  mode : Mode
  track : String
  epochsSlack : Int64
  samples : Int64
  deriving DecidableEq, Repr

structure Controller (F : Type) where
  cfg : Config F
  ewma : Ewma F
  samples : Int64
  slack : Int64
  beQuota : Int64
  /-- The zero time is `0`: times are counted from it. -/
  lastAction : Time
  lastName : Option Action
  snap : Snapshot F
  deriving DecidableEq, Repr

namespace Controller

variable {F : Type}

def dwellOK (c : Controller F) (now : Time) : Bool := decide (c.cfg.minDwell ≤ timeSub now c.lastAction)

/-- What a decision to move the quota is called outside enforce mode, and what it shows. -/
def announce (c : Controller F) (advise would : Action) (dec : Decision) : Decision :=
  match c.cfg.mode with
  | .advise => { dec with action := advise }
  | .observe => { dec with action := would, beQuotaPct := c.beQuota }
  | _ => dec

def shrunk (c : Controller F) : Int64 :=
  let next := c.beQuota - c.cfg.stepPct
  if next < c.cfg.beQuotaFloor then c.cfg.beQuotaFloor else next

def reclaimed (c : Controller F) : Int64 :=
  let next := c.beQuota + c.cfg.stepPct
  if c.cfg.beQuotaCeil < next then c.cfg.beQuotaCeil else next

def shrink (c : Controller F) (now : Time) (dec : Decision) : Decision × Controller F :=
  let next := c.shrunk
  if next < c.beQuota then
    let dec := { dec with action := .shrinkBe, reason := .noiseTrip, beQuotaPct := next }
    let c := { c with slack := 0 }
    let c := if c.cfg.mode.acts then { c with beQuota := next, lastAction := now, lastName := some .shrinkBe } else c
    (c.announce .adviseShrinkBe .observeWouldShrinkBe dec, c)
  else (dec, c)

def reclaim (c : Controller F) (dwellOK : Bool) (now : Time) (dec : Decision) : Decision × Controller F :=
  let c := { c with slack := c.slack + 1 }
  if c.cfg.slackEpochs ≤ c.slack ∧ dwellOK = true ∧ c.beQuota < c.cfg.beQuotaCeil then
    let next := c.reclaimed
    let dec := { dec with action := .reclaimBe, reason := .slack, beQuotaPct := next }
    let c :=
      if c.cfg.mode.acts then
        { c with beQuota := next, slack := 0, lastAction := now, lastName := some .reclaimBe }
      else c
    (c.announce .adviseReclaimBe .observeWouldReclaimBe dec, c)
  else (dec, c)

def shown (c : Controller F) (noise pressure : F) (fault : Bool) : Controller F :=
  { c with
    snap :=
      { noiseRaw := noise, noiseEWMA := c.ewma.value, pressure := pressure, fault := fault
        beQuotaPct := c.beQuota, lastAction := c.lastName, mode := c.cfg.mode, track := c.cfg.track
        epochsSlack := c.slack, samples := c.samples } }

def setMode (c : Controller F) (mode : Mode) : Controller F :=
  { c with cfg := { c.cfg with mode := mode }, snap := { c.snap with mode := mode } }

variable [OfScientific F] [LE F] [DecidableLE F] [Add F] [Sub F] [Mul F]

def fault (c : Controller F) (noise : F) : Bool :=
  decide (c.cfg.hardDrop ≤ (c.ewma.update noise).value) || decide (c.cfg.hardDrop ≤ noise)

def sampled (c : Controller F) (noise : F) : Controller F :=
  { c with samples := c.samples + 1, ewma := c.ewma.update noise }

def observe (c : Controller F) (noise pressure : F) (now : Time) : Decision × Controller F :=
  let fault := c.fault noise
  let dwellOK := c.dwellOK now
  let c := c.sampled noise
  let dec : Decision := { action := .none, beQuotaPct := c.beQuota, reason := .none, fault := fault }
  let r :=
    if fault = true ∧ dwellOK = true then c.shrink now dec
    else if fault = false then c.reclaim dwellOK now dec
    else ({ dec with reason := .dwellOrNoop }, c)
  (r.1, r.2.shown noise pressure fault)

variable [LT F] [DecidableLT F]

def new (cfg : Config F) : Controller F :=
  let cfg := cfg.filled
  { cfg := cfg, ewma := newEWMA cfg.alpha, samples := 0, slack := 0, beQuota := cfg.beQuotaPct, lastAction := 0
    lastName := none
    snap :=
      { noiseRaw := 0.0, noiseEWMA := 0.0, pressure := 0.0, fault := false, beQuotaPct := cfg.beQuotaPct
        lastAction := none, mode := cfg.mode, track := cfg.track, epochsSlack := 0, samples := 0 } }

omit [LT F] [DecidableLT F]

def Shrinks (c : Controller F) (noise : F) (now : Time) : Prop :=
  c.fault noise = true ∧ c.dwellOK now = true ∧ c.shrunk < c.beQuota ∧ c.cfg.mode.acts = true

def Reclaims (c : Controller F) (noise : F) (now : Time) : Prop :=
  c.fault noise = false ∧ c.cfg.slackEpochs ≤ c.slack + 1 ∧ c.dwellOK now = true ∧ c.beQuota < c.cfg.beQuotaCeil ∧
    c.cfg.mode.acts = true

instance (c : Controller F) (noise : F) (now : Time) : Decidable (c.Shrinks noise now) :=
  inferInstanceAs (Decidable (_ ∧ _))

instance (c : Controller F) (noise : F) (now : Time) : Decidable (c.Reclaims noise now) :=
  inferInstanceAs (Decidable (_ ∧ _))

end Controller

/-! ## What an epoch does to the quota -/

namespace Controller

variable {F : Type} {c c' : Controller F}

structure Moved (c c' : Controller F) (next : Int64) (now : Time) : Prop where
  cfg : c'.cfg = c.cfg
  quota : c'.beQuota = next
  time : c'.lastAction = now

structure Stayed (c c' : Controller F) : Prop where
  cfg : c'.cfg = c.cfg
  quota : c'.beQuota = c.beQuota
  time : c'.lastAction = c.lastAction

theorem shrink_moves (now : Time) (dec : Decision) (hlt : c.shrunk < c.beQuota) (hm : c.cfg.mode.acts = true) :
    Moved c (c.shrink now dec).2 c.shrunk now := by
  simp only [shrink, if_pos hlt, if_pos hm]
  exact ⟨rfl, rfl, rfl⟩

theorem shrink_stays (now : Time) (dec : Decision) (h : ¬ (c.shrunk < c.beQuota ∧ c.cfg.mode.acts = true)) :
    Stayed c (c.shrink now dec).2 := by
  simp only [shrink]
  split
  · rename_i hlt
    rw [if_neg fun hm => h ⟨hlt, hm⟩]
    exact ⟨rfl, rfl, rfl⟩
  · exact ⟨rfl, rfl, rfl⟩

theorem reclaim_moves {d : Bool} (now : Time) (dec : Decision)
    (hdue : c.cfg.slackEpochs ≤ c.slack + 1 ∧ d = true ∧ c.beQuota < c.cfg.beQuotaCeil) (hm : c.cfg.mode.acts = true) :
    Moved c (c.reclaim d now dec).2 c.reclaimed now := by
  simp only [reclaim]
  rw [if_pos hdue, if_pos hm]
  exact ⟨rfl, rfl, rfl⟩

theorem reclaim_stays {d : Bool} (now : Time) (dec : Decision)
    (h : ¬ ((c.cfg.slackEpochs ≤ c.slack + 1 ∧ d = true ∧ c.beQuota < c.cfg.beQuotaCeil) ∧
      c.cfg.mode.acts = true)) : Stayed c (c.reclaim d now dec).2 := by
  simp only [reclaim]
  split
  · rename_i hdue
    rw [if_neg fun hm => h ⟨hdue, hm⟩]
    exact ⟨rfl, rfl, rfl⟩
  · exact ⟨rfl, rfl, rfl⟩

/-! The snapshot that comes last and the sample that comes first leave alone what a branch moves. -/

theorem Moved.shown {next : Int64} {now : Time} (h : Moved c c' next now) (noise pressure : F) (fault : Bool) :
    Moved c (c'.shown noise pressure fault) next now :=
  ⟨h.cfg, h.quota, h.time⟩

theorem Stayed.shown (h : Stayed c c') (noise pressure : F) (fault : Bool) :
    Stayed c (c'.shown noise pressure fault) :=
  ⟨h.cfg, h.quota, h.time⟩

variable [OfScientific F] [LE F] [DecidableLE F] [Add F] [Sub F] [Mul F]

omit [LE F] [DecidableLE F] in
theorem Moved.of_sampled {noise : F} {next : Int64} {now : Time} (h : Moved (c.sampled noise) c' next now) :
    Moved c c' next now :=
  ⟨h.cfg, h.quota, h.time⟩

omit [LE F] [DecidableLE F] in
theorem Stayed.of_sampled {noise : F} (h : Stayed (c.sampled noise) c') : Stayed c c' :=
  ⟨h.cfg, h.quota, h.time⟩

theorem observe_shrinks {noise : F} {now : Time} (pressure : F) (h : c.Shrinks noise now) :
    Moved c (c.observe noise pressure now).2 c.shrunk now := by
  obtain ⟨hf, hd, hlt, hm⟩ := h
  simp only [observe]
  rw [if_pos ⟨hf, hd⟩]
  exact (Moved.of_sampled (shrink_moves now _ hlt hm)).shown noise pressure _

theorem observe_reclaims {noise : F} {now : Time} (pressure : F) (h : c.Reclaims noise now) :
    Moved c (c.observe noise pressure now).2 c.reclaimed now := by
  obtain ⟨hf, hs, hd, hlt, hm⟩ := h
  simp only [observe]
  rw [if_neg (by simp [hf]), if_pos hf]
  exact (Moved.of_sampled (reclaim_moves now _ ⟨hs, hd, hlt⟩ hm)).shown noise pressure _

theorem observe_idle {noise : F} {now : Time} (pressure : F) (hs : ¬ c.Shrinks noise now)
    (hr : ¬ c.Reclaims noise now) : Stayed c (c.observe noise pressure now).2 := by
  simp only [observe]
  split
  · rename_i hb
    exact (Stayed.of_sampled (shrink_stays now _ fun h => hs ⟨hb.1, hb.2, h.1, h.2⟩)).shown noise pressure _
  · split
    · rename_i hf
      refine (Stayed.of_sampled (reclaim_stays now _ ?_)).shown noise pressure _
      exact fun h => hr ⟨hf, h.1.1, h.1.2.1, h.1.2.2, h.2⟩
    · exact ⟨rfl, rfl, rfl⟩

theorem observe_cfg (c : Controller F) (noise pressure : F) (now : Time) :
    (c.observe noise pressure now).2.cfg = c.cfg := by
  by_cases hs : c.Shrinks noise now
  · exact (observe_shrinks pressure hs).cfg
  · by_cases hr : c.Reclaims noise now
    · exact (observe_reclaims pressure hr).cfg
    · exact (observe_idle pressure hs hr).cfg

end Controller

/-! ## The quota over a run -/

section Run

variable {F : Type} {c c' : Controller F}

structure Config.Positive (cfg : Config F) : Prop where
  floor : 0 < cfg.beQuotaFloor.toInt
  ceil : 0 < cfg.beQuotaCeil.toInt
  step : 0 < cfg.stepPct.toInt
  dwell : 0 < cfg.minDwell

theorem toInt_pos_of_filled {x d : Int64} (hd : 0 < d.toInt) : 0 < (if x ≤ 0 then d else x).toInt := by
  split
  · exact hd
  · rename_i hx
    have h0 : (0 : Int64).toInt = 0 := rfl
    rw [Int64.le_iff_toInt_le, h0] at hx
    omega

theorem Config.filled_positive [OfScientific F] [LE F] [DecidableLE F] (cfg : Config F) : cfg.filled.Positive where
  floor := toInt_pos_of_filled (d := 10) (by decide)
  ceil := toInt_pos_of_filled (d := 100) (by decide)
  step := toInt_pos_of_filled (d := 10) (by decide)
  dwell := by
    show (0 : ℤ) < if cfg.minDwell ≤ 0 then 3 * second else cfg.minDwell
    split
    · decide
    · exact not_le.mp ‹_›

namespace Controller

theorem toInt_shrunk (hp : c.cfg.Positive) (hq : 0 < c.beQuota.toInt) :
    c.shrunk.toInt = max c.cfg.beQuotaFloor.toInt (c.beQuota.toInt - c.cfg.stepPct.toInt) := by
  have hs := hp.step
  have hs' := c.cfg.stepPct.toInt_lt
  have hq' := c.beQuota.toInt_lt
  have hsub : (c.beQuota - c.cfg.stepPct).toInt = c.beQuota.toInt - c.cfg.stepPct.toInt :=
    toInt_sub_of_fits (by omega) (by omega)
  simp only [shrunk, Int64.lt_iff_toInt_lt, hsub]
  split <;> omega

theorem toInt_reclaimed (hp : c.cfg.Positive) (hq : 0 < c.beQuota.toInt)
    (hfits : c.beQuota.toInt + c.cfg.stepPct.toInt < 2 ^ 63) :
    c.reclaimed.toInt = min c.cfg.beQuotaCeil.toInt (c.beQuota.toInt + c.cfg.stepPct.toInt) := by
  have hs := hp.step
  have hadd : (c.beQuota + c.cfg.stepPct).toInt = c.beQuota.toInt + c.cfg.stepPct.toInt :=
    toInt_add_of_fits (by omega) hfits
  simp only [reclaimed, Int64.lt_iff_toInt_lt, hadd]
  split <;> omega

theorem lt_reclaimed (hp : c.cfg.Positive) (hq : 0 < c.beQuota.toInt)
    (hfits : c.beQuota.toInt + c.cfg.stepPct.toInt < 2 ^ 63) (hlt : c.beQuota < c.cfg.beQuotaCeil) :
    c.beQuota < c.reclaimed := by
  have hs := hp.step
  rw [Int64.lt_iff_toInt_lt] at hlt ⊢
  rw [toInt_reclaimed hp hq hfits]
  omega

/-- Past the end of the type a reclaim is a negative quota, which no ceiling stops. -/
theorem reclaimed_neg (hp : c.cfg.Positive) (hover : 2 ^ 63 ≤ c.beQuota.toInt + c.cfg.stepPct.toInt) :
    c.reclaimed.toInt < 0 := by
  have hc := hp.ceil
  have hs := c.cfg.stepPct.toInt_lt
  have hq := c.beQuota.toInt_lt
  have hadd := toInt_add_of_overflows hover
  simp only [reclaimed, Int64.lt_iff_toInt_lt, hadd]
  split <;> omega

end Controller

/-- A controller and the time its quota last changed, which no code reads. -/
structure Tracked (F : Type) where
  ctrl : Controller F
  changedAt : Option Time

inductive Call (F : Type) where
  | observe (noise pressure : F) (now : Time)
  | setMode (mode : Mode)

namespace Tracked

variable [OfScientific F] [LE F] [DecidableLE F] [Add F] [Sub F] [Mul F]

def step (w : Tracked F) : Call F → Option Decision × Tracked F
  | .observe noise pressure now =>
    let r := w.ctrl.observe noise pressure now
    (some r.1, { ctrl := r.2, changedAt := if r.2.beQuota = w.ctrl.beQuota then w.changedAt else some now })
  | .setMode mode => (none, { w with ctrl := w.ctrl.setMode mode })

structure Regular (cfg : Config F) (w : Tracked F) (call : Call F) : Prop where
  floor : cfg.beQuotaFloor ≤ (w.step call).2.ctrl.beQuota
  ceil : (w.step call).2.ctrl.beQuota ≤ cfg.beQuotaCeil
  small : |(w.step call).2.ctrl.beQuota.toInt - w.ctrl.beQuota.toInt| ≤ cfg.stepPct.toInt
  gated : (w.step call).2.ctrl.beQuota ≠ w.ctrl.beQuota → w.ctrl.cfg.mode = .enforce ∨ w.ctrl.cfg.mode = .advise
  dwelt : (w.step call).2.ctrl.beQuota ≠ w.ctrl.beQuota →
    ∀ t₁ ∈ w.changedAt, ∀ noise pressure t₂, call = .observe noise pressure t₂ → cfg.minDwell ≤ t₂ - t₁

/-- A reclaim the call makes does not wrap. -/
def Fits (w : Tracked F) : Call F → Prop
  | .observe noise _ now =>
    w.ctrl.Reclaims noise now → w.ctrl.beQuota.toInt + w.ctrl.cfg.stepPct.toInt < 2 ^ 63
  | .setMode _ => True

instance (w : Tracked F) (call : Call F) : Decidable (w.Fits call) := by
  cases call with
  | observe noise pressure now => exact inferInstanceAs (Decidable (_ → _))
  | setMode mode => exact isTrue trivial

structure Inv (cfg : Config F) (w : Tracked F) : Prop where
  same : ∃ mode, w.ctrl.cfg = { cfg with mode := mode }
  floor : cfg.beQuotaFloor ≤ w.ctrl.beQuota
  ceil : w.ctrl.beQuota ≤ cfg.beQuotaCeil
  changed : ∀ t ∈ w.changedAt, w.ctrl.lastAction = t

omit [OfScientific F] [LE F] [DecidableLE F] [Add F] [Sub F] [Mul F] in
theorem Inv.positive {cfg : Config F} {w : Tracked F} (hi : Inv cfg w) (hp : cfg.Positive) : w.ctrl.cfg.Positive := by
  obtain ⟨mode, hsame⟩ := hi.same
  rw [hsame]
  exact ⟨hp.floor, hp.ceil, hp.step, hp.dwell⟩

omit [OfScientific F] [LE F] [DecidableLE F] [Add F] [Sub F] [Mul F] in
theorem Inv.quota_pos {cfg : Config F} {w : Tracked F} (hi : Inv cfg w) (hp : cfg.Positive) :
    0 < w.ctrl.beQuota.toInt :=
  lt_of_lt_of_le hp.floor (Int64.le_iff_toInt_le.mp hi.floor)

variable {cfg : Config F} {w : Tracked F} {noise pressure : F} {now : Time}

theorem Inv.regular_of_unmoved (hi : Inv cfg w) (hp : cfg.Positive) {call : Call F}
    (hq : (w.step call).2.ctrl.beQuota = w.ctrl.beQuota) : Regular cfg w call := by
  refine ⟨hq ▸ hi.floor, hq ▸ hi.ceil, ?_, fun hne => absurd hq hne, fun hne => absurd hq hne⟩
  rw [hq, sub_self, abs_zero]
  exact le_of_lt hp.step

theorem Inv.stays (hi : Inv cfg w) (hp : cfg.Positive)
    (h : Controller.Stayed w.ctrl (w.ctrl.observe noise pressure now).2) :
    Regular cfg w (.observe noise pressure now) ∧ Inv cfg (w.step (.observe noise pressure now)).2 := by
  have hq : (w.step (.observe noise pressure now)).2.ctrl.beQuota = w.ctrl.beQuota := h.quota
  refine ⟨hi.regular_of_unmoved hp hq, h.cfg ▸ hi.same, hq ▸ hi.floor, hq ▸ hi.ceil, ?_⟩
  intro t ht
  simp only [step, if_pos h.quota] at ht
  exact h.time.trans (hi.changed t ht)

/-- An epoch that moves the quota by no more than a step, after the dwell and in a mode that
    acts. -/
theorem Inv.moves (hi : Inv cfg w) (hp : cfg.Positive) {next : Int64}
    (h : Controller.Moved w.ctrl (w.ctrl.observe noise pressure now).2 next now) (hd : w.ctrl.dwellOK now = true)
    (hm : w.ctrl.cfg.mode.acts = true) (hlo : cfg.beQuotaFloor ≤ next) (hhi : next ≤ cfg.beQuotaCeil)
    (hne : next ≠ w.ctrl.beQuota) (hsmall : |next.toInt - w.ctrl.beQuota.toInt| ≤ cfg.stepPct.toInt) :
    Regular cfg w (.observe noise pressure now) ∧ Inv cfg (w.step (.observe noise pressure now)).2 := by
  have hq : (w.step (.observe noise pressure now)).2.ctrl.beQuota = next := h.quota
  constructor
  · refine ⟨hq ▸ hlo, hq ▸ hhi, hq ▸ hsmall, ?_, ?_⟩
    · intro _
      simpa [Mode.acts] using hm
    · intro _ t ht _ _ t₂ hcall
      cases hcall
      obtain ⟨mode, hsame⟩ := hi.same
      have hdwell : cfg.minDwell ≤ timeSub now w.ctrl.lastAction := by
        have hle := of_decide_eq_true hd
        rwa [hsame] at hle
      rw [hi.changed t ht] at hdwell
      exact le_sub_of_le_timeSub hp.dwell hdwell
  · refine ⟨h.cfg ▸ hi.same, hq ▸ hlo, hq ▸ hhi, ?_⟩
    intro t ht
    simp only [step, h.quota, if_neg hne] at ht
    cases ht
    exact h.time

theorem Inv.shrinks (hi : Inv cfg w) (hp : cfg.Positive) (hs : w.ctrl.Shrinks noise now) :
    Regular cfg w (.observe noise pressure now) ∧ Inv cfg (w.step (.observe noise pressure now)).2 := by
  have hnext := Controller.toInt_shrunk (hi.positive hp) (hi.quota_pos hp)
  have hmoved := Controller.observe_shrinks pressure hs
  obtain ⟨-, hd, hlt, hm⟩ := hs
  obtain ⟨mode, hsame⟩ := hi.same
  have hstep := hp.step
  have hceil := Int64.le_iff_toInt_le.mp hi.ceil
  have hlt' := Int64.lt_iff_toInt_lt.mp hlt
  rw [hsame] at hnext
  simp only at hnext
  refine hi.moves hp hmoved hd hm ?_ ?_ ?_ ?_
  · rw [Int64.le_iff_toInt_le]
    omega
  · rw [Int64.le_iff_toInt_le]
    omega
  · exact Int64.ne_of_lt hlt
  · rw [abs_le]
    omega

theorem Inv.reclaims (hi : Inv cfg w) (hp : cfg.Positive) (hr : w.ctrl.Reclaims noise now)
    (hfits : w.ctrl.beQuota.toInt + w.ctrl.cfg.stepPct.toInt < 2 ^ 63) :
    Regular cfg w (.observe noise pressure now) ∧ Inv cfg (w.step (.observe noise pressure now)).2 := by
  have hnext := Controller.toInt_reclaimed (hi.positive hp) (hi.quota_pos hp) hfits
  have hmoved := Controller.observe_reclaims pressure hr
  obtain ⟨-, -, hd, hlt, hm⟩ := hr
  have hgrows := Controller.lt_reclaimed (hi.positive hp) (hi.quota_pos hp) hfits hlt
  obtain ⟨mode, hsame⟩ := hi.same
  have hstep := hp.step
  have hfloor := Int64.le_iff_toInt_le.mp hi.floor
  rw [Int64.lt_iff_toInt_lt] at hlt
  rw [hsame] at hnext hlt
  simp only at hnext hlt
  refine hi.moves hp hmoved hd hm ?_ ?_ ?_ ?_
  · rw [Int64.le_iff_toInt_le]
    omega
  · rw [Int64.le_iff_toInt_le]
    omega
  · exact (Int64.ne_of_lt hgrows).symm
  · rw [abs_le]
    omega

theorem Inv.setMode (hi : Inv cfg w) (hp : cfg.Positive) (mode : Mode) :
    Regular cfg w (.setMode mode) ∧ Inv cfg (w.step (.setMode mode)).2 := by
  obtain ⟨m, hsame⟩ := hi.same
  refine ⟨hi.regular_of_unmoved hp rfl, ⟨mode, ?_⟩, hi.floor, hi.ceil, hi.changed⟩
  show { w.ctrl.cfg with mode := mode } = _
  rw [hsame]

theorem Inv.step (hi : Inv cfg w) (hp : cfg.Positive) {call : Call F} (hf : w.Fits call) :
    Regular cfg w call ∧ Inv cfg (w.step call).2 := by
  cases call with
  | setMode mode => exact hi.setMode hp mode
  | observe noise pressure now =>
    by_cases hs : w.ctrl.Shrinks noise now
    · exact hi.shrinks hp hs
    · by_cases hr : w.ctrl.Reclaims noise now
      · exact hi.reclaims hp hr (hf hr)
      · exact hi.stays hp (Controller.observe_idle pressure hs hr)

theorem Inv.fits_of_regular (hi : Inv cfg w) (hp : cfg.Positive) {call : Call F} (h : Regular cfg w call) :
    w.Fits call := by
  cases call with
  | setMode mode => trivial
  | observe noise pressure now =>
    intro hr
    by_contra hover
    have hq : (w.step (.observe noise pressure now)).2.ctrl.beQuota = w.ctrl.reclaimed :=
      (Controller.observe_reclaims pressure hr).quota
    have hneg := Controller.reclaimed_neg (hi.positive hp) (not_lt.mp hover)
    have hfloor := h.floor
    rw [hq, Int64.le_iff_toInt_le] at hfloor
    have hpos := hp.floor
    omega

variable [LT F] [DecidableLT F]

def start (cfg : Config F) : Tracked F := { ctrl := .new cfg, changedAt := none }

end Tracked

/-- In every run of calls the quota stays between floor and ceiling, moves by no more than a
    step at a time, only in the modes that act and never twice within the dwell, exactly
    where no reclaim wraps. -/
theorem quota_regular_iff [OfScientific F] [LE F] [DecidableLE F] [Add F] [Sub F] [Mul F] [LT F] [DecidableLT F]
    (cfg : Config F) (hlo : cfg.filled.beQuotaFloor ≤ cfg.filled.beQuotaPct)
    (hhi : cfg.filled.beQuotaPct ≤ cfg.filled.beQuotaCeil) (calls : List (Call F)) :
    along Tracked.step (Tracked.Regular cfg.filled) (Tracked.start cfg) calls ↔
      along Tracked.step Tracked.Fits (Tracked.start cfg) calls := by
  have hp := cfg.filled_positive
  refine along_iff_along (I := Tracked.Inv cfg.filled) (fun _ _ hi hf => (hi.step hp hf).2)
    (fun _ _ hi => ⟨fun h => hi.fits_of_regular hp h, fun hf => (hi.step hp hf).1⟩) ?_ calls
  exact ⟨⟨cfg.filled.mode, rfl⟩, hlo, hhi, fun t ht => absurd ht (Option.not_mem_none t)⟩

/-- Defaults in enforce mode: a trip, a change of mode and a sample within the dwell. -/
theorem quota_regular_after_a_trip :
    let cfg : Config ℚ := { defaultConfig with mode := .enforce }
    along Tracked.step (Tracked.Regular cfg.filled) (Tracked.start cfg)
      [.observe 1 0 (3 * second), .setMode .advise, .observe 1 0 (4 * second)] := by
  refine (quota_regular_iff _ (by decide +kernel) (by decide +kernel) _).mpr ⟨?_, trivial, ?_, trivial⟩
  · decide +kernel
  · decide +kernel

/-- A step of `math.MaxInt64`, and one quiet epoch. -/
theorem a_reclaim_wraps_below_the_floor :
    let cfg : Config ℚ :=
      { defaultConfig with mode := .enforce, beQuotaPct := 50, slackEpochs := 1, stepPct := Int64.maxValue }
    let w := Tracked.start cfg
    let call := Call.observe 0 0 (3 * second)
    cfg.filled = cfg ∧ cfg.beQuotaFloor ≤ cfg.beQuotaPct ∧ cfg.beQuotaPct ≤ cfg.beQuotaCeil ∧
      (w.step call).2.ctrl.beQuota.toInt = 49 - 2 ^ 63 ∧ ¬ along Tracked.step (Tracked.Regular cfg.filled) w [call] := by
  refine ⟨by decide +kernel, by decide +kernel, by decide +kernel, by decide +kernel, ?_⟩
  intro h
  exact absurd h.1.floor (by decide +kernel)

end Run

end EliteTelemetry.Dcic
