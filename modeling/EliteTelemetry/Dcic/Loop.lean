/-
  EliteTelemetry.Dcic.Loop — the control loop of `cmd/elite-dcic/main.go` over the actuators
  of `pkg/dcic/actuator.go` and `resctrl.go`.

  Every epoch makes a noise value out of the probe's latency, the CPU pressure and what the
  forecaster left on disk, gives it to the controller and, in enforce mode, applies the
  quota of a decision to shrink or reclaim. What the loop reads, and which of the
  actuator's writes fail, are inputs of the epoch.

  `Observe` has moved the controller's quota by the time the actuator runs, and a failed
  write is only logged. So the quota the loop shows and computes with is the one in force
  (`Agrees`) exactly as long as no write fails that an epoch makes; the write at start-up,
  whose error is dropped too, may be made up for by the first epoch only if that one acts
  (`quota_applied_iff`).
-/

import EliteTelemetry.Dcic.Controller

namespace EliteTelemetry.Dcic

open EliteTelemetry.Lib.GoNumbers EliteTelemetry.Lib.Machine

/-! ## The actuators -/

structure Disk where
  cpuMax : Bool
  available : Bool
  cbmMask : Bool
  /-- The group's `schemata` takes the write. -/
  schemata : Bool
  deriving DecidableEq, Repr

/-- What `cpu.max` is told to hold: a quota of a period, or no limit. -/
inductive CpuMax where
  | max (period : Int64)
  | share (quota period : Int64)
  deriving DecidableEq, Repr

def heldPct (pct : Int64) : Int64 :=
  let pct := if pct < 1 then 1 else pct
  if 100 < pct then 100 else pct

def cpuMaxOf (pct : Int64) : CpuMax :=
  let pct := heldPct pct
  let period := 100000
  let quota := period * pct / 100
  if 100 ≤ pct then .max period else .share quota period

/-- The call returns no error. `ResctrlActuator` (`hard`) goes through the cgroup's first,
    and does without the cache where it finds none or cannot read its mask. -/
def Disk.accepts (d : Disk) (hard : Bool) : Bool :=
  d.cpuMax && (!hard || !d.available || !d.cbmMask || d.schemata)

/-! ## The loop -/

structure Flags (F : Type) where
  mode : Mode
  interval : Duration
  hardDrop : F
  actuateTrack : String

structure Capability where
  track : String
  trackBOK : Bool

def useHard (actuateTrack : String) (cap : Capability) : Bool :=
  actuateTrack == "hard" || (actuateTrack == "auto" && cap.trackBOK && cap.track == trackHard)

structure Forecast (F : Type) where
  fault : Bool
  projected : F

structure Epoch (F : Type) where
  lcLatencyNs : UInt64
  pressure : F
  /-- `ReadPolicyState`, unless it fails. -/
  policy : Option (Forecast F)
  /-- The decision file, unless it cannot be read or parsed. -/
  decision : Option (Forecast F)
  now : Time
  disk : Disk

structure Loop (F : Type) where
  cfg : Config F
  hard : Bool
  ctrl : Controller F
  /-- What `be/cpu.max` was last made to hold. -/
  cpuMax : Option CpuMax
  /-- The percentage of the last `SetBEQuotaPercent` that returned no error; no code reads it. -/
  applied : Option Int64

namespace Loop

variable {F : Type}

def setBEQuotaPercent (s : Loop F) (d : Disk) (pct : Int64) : Loop F :=
  { s with
    cpuMax := if d.cpuMax then some (cpuMaxOf pct) else s.cpuMax
    applied := if d.accepts s.hard then some (heldPct pct) else s.applied }

variable [OfScientific F] [LE F] [DecidableLE F] [LT F] [DecidableLT F] [Add F] [Sub F] [Mul F] [Div F] [Max F]
  [NatCast F]

def start (flags : Flags F) (cap : Capability) (boot : Disk) : Loop F :=
  let hard := useHard flags.actuateTrack cap
  let cfg : Config F :=
    { defaultConfig with
      mode := flags.mode, track := if hard then trackHard else trackSoft, interval := flags.interval
      hardDrop := flags.hardDrop }
  let s : Loop F := { cfg := cfg, hard := hard, ctrl := .new cfg, cpuMax := none, applied := none }
  if cfg.mode = .enforce then s.setBEQuotaPercent boot cfg.beQuotaPct else s

def raised (cfg : Config F) (noise projected : F) : F :=
  if noise < projected then projected else max noise cfg.hardDrop

def noise (cfg : Config F) (e : Epoch F) : F :=
  let lat : F := (e.lcLatencyNs.toNat : F) / 1e9
  let noise := if lat < e.pressure / 100.0 then max lat (e.pressure / 1000.0) else lat
  match e.policy, e.decision with
  | some ⟨true, projected⟩, _ => raised cfg noise projected
  | _, some ⟨true, projected⟩ => raised cfg noise projected
  | _, _ => noise

def step (s : Loop F) (e : Epoch F) : Decision × Loop F :=
  let r := s.ctrl.observe (noise s.cfg e) e.pressure e.now
  let t := { s with ctrl := r.2 }
  if s.cfg.mode = .enforce ∧ (r.1.action = .shrinkBe ∨ r.1.action = .reclaimBe) then
    (r.1, t.setBEQuotaPercent e.disk r.1.beQuotaPct)
  else (r.1, t)

end Loop

/-! ## What a decision says in enforce mode -/

namespace Controller

variable {F : Type} {c : Controller F}

theorem announce_enforce (hm : c.cfg.mode = .enforce) (advise would : Action) (dec : Decision) :
    c.announce advise would dec = dec := by
  unfold announce
  rw [hm]

theorem shrink_decides (hm : c.cfg.mode = .enforce) (hlt : c.shrunk < c.beQuota) (now : Time) (dec : Decision) :
    (c.shrink now dec).1.action = .shrinkBe ∧ (c.shrink now dec).1.beQuotaPct = (c.shrink now dec).2.beQuota := by
  have hacts : c.cfg.mode.acts = true := by
    rw [hm]
    rfl
  simp only [shrink, if_pos hlt, if_pos hacts]
  rw [announce_enforce]
  · exact ⟨rfl, rfl⟩
  · exact hm

theorem reclaim_decides {d : Bool} (hm : c.cfg.mode = .enforce)
    (hdue : c.cfg.slackEpochs ≤ c.slack + 1 ∧ d = true ∧ c.beQuota < c.cfg.beQuotaCeil) (now : Time) (dec : Decision) :
    (c.reclaim d now dec).1.action = .reclaimBe ∧
      (c.reclaim d now dec).1.beQuotaPct = (c.reclaim d now dec).2.beQuota := by
  have hacts : c.cfg.mode.acts = true := by
    rw [hm]
    rfl
  simp only [reclaim]
  rw [if_pos hdue, if_pos hacts, announce_enforce]
  · exact ⟨rfl, rfl⟩
  · exact hm

variable [OfScientific F] [LE F] [DecidableLE F] [Add F] [Sub F] [Mul F]

theorem observe_acts {noise : F} {now : Time} (hm : c.cfg.mode = .enforce) (pressure : F)
    (h : c.Shrinks noise now ∨ c.Reclaims noise now) :
    ((c.observe noise pressure now).1.action = .shrinkBe ∨ (c.observe noise pressure now).1.action = .reclaimBe) ∧
      (c.observe noise pressure now).1.beQuotaPct = (c.observe noise pressure now).2.beQuota := by
  simp only [observe]
  rcases h with ⟨hf, hd, hlt, -⟩ | ⟨hf, hs, hd, hlt, -⟩
  · rw [if_pos ⟨hf, hd⟩]
    have hdec := shrink_decides (c := c.sampled noise) hm hlt now ⟨.none, c.beQuota, .none, c.fault noise⟩
    exact ⟨.inl hdec.1, hdec.2⟩
  · rw [if_neg (by simp [hf]), if_pos hf]
    have hdec :=
      reclaim_decides (c := c.sampled noise) hm ⟨hs, hd, hlt⟩ now ⟨.none, c.beQuota, .none, c.fault noise⟩
    exact ⟨.inr hdec.1, hdec.2⟩

theorem observe_rests {noise : F} {now : Time} (hm : c.cfg.mode = .enforce) (pressure : F)
    (hs : ¬ c.Shrinks noise now) (hr : ¬ c.Reclaims noise now) : (c.observe noise pressure now).1.action = .none := by
  have hacts : c.cfg.mode.acts = true := by
    rw [hm]
    rfl
  simp only [observe]
  split
  · rename_i hb
    have hlt : ¬ (c.sampled noise).shrunk < (c.sampled noise).beQuota := fun hlt => hs ⟨hb.1, hb.2, hlt, hacts⟩
    simp only [shrink, if_neg hlt]
  · split
    · rename_i hf
      have hdue : ¬ ((c.sampled noise).cfg.slackEpochs ≤ (c.sampled noise).slack + 1 ∧ c.dwellOK now = true ∧
          (c.sampled noise).beQuota < (c.sampled noise).cfg.beQuotaCeil) :=
        fun h => hr ⟨hf, h.1, h.2.1, h.2.2, hacts⟩
      simp only [reclaim]
      rw [if_neg hdue]
    · rfl

end Controller

/-! ## The quota in force -/

namespace Loop

section Shipped

variable {F : Type} {e : Epoch F} {s : Loop F}

structure Shipped (cfg : Config F) : Prop where
  mode : cfg.mode = .enforce
  floor : cfg.beQuotaFloor = 10
  ceil : cfg.beQuotaCeil = 100
  step : cfg.stepPct = 10
  dwell : cfg.minDwell = 3 * second

theorem Shipped.positive {cfg : Config F} (h : Shipped cfg) : cfg.Positive := by
  refine ⟨?_, ?_, ?_, ?_⟩
  · rw [h.floor]
    decide
  · rw [h.ceil]
    decide
  · rw [h.step]
    decide
  · rw [h.dwell]
    decide

/-- The actuator takes a quota between floor and ceiling as it is. -/
theorem Shipped.heldPct_eq {cfg : Config F} (h : Shipped cfg) {pct : Int64} (hlo : cfg.beQuotaFloor ≤ pct)
    (hhi : pct ≤ cfg.beQuotaCeil) : heldPct pct = pct := by
  have h1 : (1 : Int64).toInt = 1 := rfl
  have h10 : (10 : Int64).toInt = 10 := rfl
  have h100 : (100 : Int64).toInt = 100 := rfl
  rw [h.floor, Int64.le_iff_toInt_le] at hlo
  rw [h.ceil, Int64.le_iff_toInt_le] at hhi
  have hlow : ¬ pct < 1 := by
    rw [Int64.lt_iff_toInt_lt]
    omega
  have hhigh : ¬ 100 < pct := by
    rw [Int64.lt_iff_toInt_lt]
    omega
  simp only [heldPct, if_neg hlow, if_neg hhigh]

structure Inv (s : Loop F) : Prop where
  mode : s.cfg.mode = .enforce
  shipped : Shipped s.ctrl.cfg
  floor : s.ctrl.cfg.beQuotaFloor ≤ s.ctrl.beQuota
  ceil : s.ctrl.beQuota ≤ s.ctrl.cfg.beQuotaCeil
  applied : ∀ pct ∈ s.applied, pct = s.ctrl.beQuota

end Shipped

variable {F : Type} [OfScientific F] [LE F] [DecidableLE F] [LT F] [DecidableLT F] [Add F] [Sub F] [Mul F] [Div F] [Max F]
  {c : Controller F} {e : Epoch F} {s : Loop F}
  [NatCast F]

/-- The quota the loop works with and shows is the last one the actuator applied. -/
def Agrees (s : Loop F) : Prop := s.applied = some s.ctrl.beQuota ∧ s.applied = some s.ctrl.snap.beQuotaPct

def Acts (s : Loop F) (e : Epoch F) : Prop :=
  s.ctrl.Shrinks (noise s.cfg e) e.now ∨ s.ctrl.Reclaims (noise s.cfg e) e.now

/-- What it applies is taken; and if nothing has been yet, it does apply something. -/
def Applies (s : Loop F) (e : Epoch F) : Prop :=
  (s.Acts e → e.disk.accepts s.hard = true) ∧ (s.applied = none → s.Acts e)

instance (s : Loop F) (e : Epoch F) : Decidable (s.Acts e) := inferInstanceAs (Decidable (_ ∨ _))

instance (s : Loop F) (e : Epoch F) : Decidable (s.Applies e) := inferInstanceAs (Decidable (_ ∧ _))

abbrev observed (s : Loop F) (e : Epoch F) : Controller F := (s.ctrl.observe (noise s.cfg e) e.pressure e.now).2

theorem step_acts (hm : s.cfg.mode = .enforce) (hc : s.ctrl.cfg.mode = .enforce) (h : s.Acts e) :
    (s.step e).2 = { s with ctrl := s.observed e }.setBEQuotaPercent e.disk (s.observed e).beQuota := by
  obtain ⟨hact, hpct⟩ := Controller.observe_acts hc e.pressure h
  simp only [step]
  rw [if_pos ⟨hm, hact⟩, hpct]

theorem step_rests (hc : s.ctrl.cfg.mode = .enforce) (h : ¬ s.Acts e) :
    (s.step e).2 = { s with ctrl := s.observed e } := by
  have hact := Controller.observe_rests hc e.pressure (fun hs => h (.inl hs)) (fun hr => h (.inr hr))
  simp only [step]
  rw [if_neg (by simp [hact])]

theorem observed_rests (h : ¬ s.Acts e) : (s.observed e).beQuota = s.ctrl.beQuota :=
  (Controller.observe_idle e.pressure (fun hs => h (.inl hs)) (fun hr => h (.inr hr))).quota

theorem step_cfg (s : Loop F) (e : Epoch F) : (s.step e).2.cfg = s.cfg := by
  simp only [step]
  split <;> rfl

theorem step_ctrl (s : Loop F) (e : Epoch F) : (s.step e).2.ctrl = s.observed e := by
  simp only [step]
  split <;> rfl

/-- The snapshot is taken after the quota has moved, so one equation is enough. -/
theorem agrees_step (s : Loop F) (e : Epoch F) :
    Agrees (s.step e).2 ↔ (s.step e).2.applied = some (s.observed e).beQuota := by
  unfold Agrees
  rw [step_ctrl]
  exact and_self_iff

omit [OfScientific F] [LE F] [DecidableLE F] [LT F] [DecidableLT F] [Add F] [Sub F] [Mul F] [Div F] [Max F] [NatCast F] in
theorem Inv.tracked (hi : Inv s) : Tracked.Inv s.ctrl.cfg ⟨s.ctrl, none⟩ :=
  ⟨⟨s.ctrl.cfg.mode, rfl⟩, hi.floor, hi.ceil, fun t ht => absurd ht (Option.not_mem_none t)⟩

omit [OfScientific F] [LE F] [DecidableLE F] [LT F] [DecidableLT F] [Add F] [Sub F] [Mul F] [Div F] [Max F] [NatCast F] in
theorem Inv.fits (hi : Inv s) : s.ctrl.beQuota.toInt + s.ctrl.cfg.stepPct.toInt < 2 ^ 63 := by
  have hceil := hi.ceil
  rw [hi.shipped.ceil, Int64.le_iff_toInt_le] at hceil
  have h100 : (100 : Int64).toInt = 100 := rfl
  have h10 : (10 : Int64).toInt = 10 := rfl
  rw [hi.shipped.step]
  omega

theorem Inv.observed_bounds (hi : Inv s) (e : Epoch F) :
    s.ctrl.cfg.beQuotaFloor ≤ (s.observed e).beQuota ∧ (s.observed e).beQuota ≤ s.ctrl.cfg.beQuotaCeil := by
  have hfits : Tracked.Fits ⟨s.ctrl, none⟩ (.observe (noise s.cfg e) e.pressure e.now) := fun _ => hi.fits
  have hnext := hi.tracked.step hi.shipped.positive hfits
  exact ⟨hnext.2.floor, hnext.2.ceil⟩

theorem Inv.observed_ne (hi : Inv s) (h : s.Acts e) : (s.observed e).beQuota ≠ s.ctrl.beQuota := by
  rcases h with hs | hr
  · rw [(Controller.observe_shrinks e.pressure hs).quota]
    exact Int64.ne_of_lt hs.2.2.1
  · rw [(Controller.observe_reclaims e.pressure hr).quota]
    have hp := hi.shipped.positive
    exact (Int64.ne_of_lt (Controller.lt_reclaimed hp (hi.tracked.quota_pos hp) hi.fits hr.2.2.2.1)).symm

theorem Inv.applied_acts (hi : Inv s) (h : s.Acts e) :
    (s.step e).2.applied = if e.disk.accepts s.hard = true then some (s.observed e).beQuota else s.applied := by
  obtain ⟨hlo, hhi⟩ := hi.observed_bounds e
  rw [step_acts hi.mode hi.shipped.mode h]
  simp only [setBEQuotaPercent]
  rw [hi.shipped.heldPct_eq hlo hhi]

theorem Inv.applied_rests (hi : Inv s) (h : ¬ s.Acts e) : (s.step e).2.applied = s.applied := by
  rw [step_rests hi.shipped.mode h]

theorem Inv.agrees_iff (hi : Inv s) (e : Epoch F) : Agrees (s.step e).2 ↔ s.Applies e := by
  rw [agrees_step]
  by_cases h : s.Acts e
  · rw [hi.applied_acts h]
    by_cases hok : e.disk.accepts s.hard = true
    · rw [if_pos hok]
      exact iff_of_true rfl ⟨fun _ => hok, fun _ => h⟩
    · rw [if_neg hok]
      exact iff_of_false (fun hap => hi.observed_ne h (hi.applied _ hap)) (fun hap => hok (hap.1 h))
  · rw [hi.applied_rests h, observed_rests h]
    constructor
    · intro hap
      exact ⟨fun hact => absurd hact h, fun hnone => absurd (hnone.symm.trans hap) (Option.some_ne_none _).symm⟩
    · intro hap
      obtain ⟨pct, hpct⟩ := Option.ne_none_iff_exists'.mp fun hnone => h (hap.2 hnone)
      rw [hpct, hi.applied pct hpct]

theorem Inv.step (hi : Inv s) (h : s.Applies e) : Inv (s.step e).2 := by
  have hcfg : (s.observed e).cfg = s.ctrl.cfg := Controller.observe_cfg ..
  have hag := (agrees_step s e).mp ((hi.agrees_iff e).mpr h)
  obtain ⟨hlo, hhi⟩ := hi.observed_bounds e
  refine ⟨?_, ?_, ?_, ?_, ?_⟩
  · rw [step_cfg]
    exact hi.mode
  · rw [step_ctrl, hcfg]
    exact hi.shipped
  · rw [step_ctrl, hcfg]
    exact hlo
  · rw [step_ctrl, hcfg]
    exact hhi
  · intro pct hpct
    rw [step_ctrl]
    exact Option.some.inj (hpct.symm.trans hag)

omit [Add F] [Sub F] [Mul F] [Div F] [Max F] [NatCast F] in
theorem start_inv (flags : Flags F) (cap : Capability) (boot : Disk) (hmode : flags.mode = .enforce) :
    Inv (start flags cap boot) := by
  obtain ⟨mode, interval, hardDrop, actuateTrack⟩ := flags
  cases hmode
  refine ⟨rfl, ⟨rfl, rfl, rfl, rfl, rfl⟩, ?_, ?_, ?_⟩
  · show (10 : Int64) ≤ 100
    decide
  · show (100 : Int64) ≤ 100
    decide
  · intro pct hpct
    have happ : (if boot.accepts (useHard actuateTrack cap) = true then some (heldPct 100) else none) = some pct := hpct
    split at happ
    · exact (Option.some.inj happ).symm
    · cases happ

end Loop

/-- In enforce mode, after every epoch of a run the quota the loop works with and shows is
    the last one the actuator applied, exactly where every epoch that acts has its write
    taken, and the first one acts if the write at start-up was not. -/
theorem quota_applied_iff {F : Type} [OfScientific F] [LE F] [DecidableLE F] [LT F] [DecidableLT F] [Add F] [Sub F]
    [Mul F] [Div F] [Max F] [NatCast F] (flags : Flags F) (cap : Capability) (boot : Disk)
    (hmode : flags.mode = .enforce) (epochs : List (Epoch F)) :
    along Loop.step (fun s e => (s.step e).2.Agrees) (Loop.start flags cap boot) epochs ↔
      along Loop.step Loop.Applies (Loop.start flags cap boot) epochs :=
  along_iff_along (I := Loop.Inv) (fun _ _ hi h => hi.step h) (fun _ e hi => hi.agrees_iff e)
    (Loop.start_inv flags cap boot hmode) epochs

def healthyDisk : Disk := { cpuMax := true, available := false, cbmMask := false, schemata := false }

def pressed (pressure : ℚ) (now : Time) (disk : Disk) : Epoch ℚ :=
  { lcLatencyNs := 0, pressure := pressure, policy := none, decision := none, now := now, disk := disk }

theorem quota_applied_under_pressure :
    along Loop.step (fun s e => (s.step e).2.Agrees)
      (Loop.start ⟨.enforce, second, (1 / 20 : ℚ), "soft"⟩ ⟨trackSoft, false⟩ healthyDisk)
      [pressed 80 (3 * second) healthyDisk, pressed 0 (4 * second) healthyDisk] := by
  refine (quota_applied_iff _ _ _ rfl _).mpr ⟨?_, ?_, trivial⟩
  · decide +kernel
  · decide +kernel

/-- The write of a first shrink fails: the loop shows 90% and goes on from there, the
    cgroup still has its 100%. -/
theorem a_failed_write_is_not_undone :
    let s := Loop.start ⟨.enforce, second, (1 / 20 : ℚ), "soft"⟩ ⟨trackSoft, false⟩ healthyDisk
    let t := (s.step (pressed 80 (3 * second) { healthyDisk with cpuMax := false })).2
    t.ctrl.beQuota = 90 ∧ t.ctrl.snap.beQuotaPct = 90 ∧ t.applied = some 100 ∧ t.cpuMax = some (.max 100000) ∧
      ¬ t.Agrees := by
  refine ⟨by decide +kernel, by decide +kernel, by decide +kernel, by decide +kernel, ?_⟩
  intro h
  exact absurd h.1 (by decide +kernel)

end EliteTelemetry.Dcic
