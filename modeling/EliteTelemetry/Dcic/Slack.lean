/-
  EliteTelemetry.Dcic.Slack — how quiet it was before a reclaim (`Controller.Observe` of
  `pkg/dcic/controller.go`).

  A quiet epoch, one without a fault, counts one up in `slack`, and a reclaim waits for the
  count to reach `SlackEpochs`. The count is meant to be of quiet epochs in a row, but a fault
  sets it back only where it takes a step off the quota. A fault within the dwell, or with
  the quota at its floor, leaves the count as it is, and the epochs before it still count.

  Where every fault that leaves the count finds nothing counted, a reclaim comes after
  `SlackEpochs` quiet epochs in a row (`reclaim_after_quiet`). A fault at the floor between
  two quiet epochs is enough to break it (`a_fault_at_the_floor_counts_as_quiet`).
-/

import EliteTelemetry.Dcic.Controller

namespace EliteTelemetry.Dcic

open EliteTelemetry.Lib.GoNumbers EliteTelemetry.Lib.Machine

/-! ## Quiet epochs in a row -/

/-- The last `n` decisions are without a fault. -/
def QuietFor (n : Nat) (ds : List Decision) : Prop := n ≤ ds.length ∧ ∀ d ∈ ds.drop (ds.length - n), d.fault = false

instance (n : Nat) (ds : List Decision) : Decidable (QuietFor n ds) := inferInstanceAs (Decidable (_ ∧ _))

theorem quietFor_zero (ds : List Decision) : QuietFor 0 ds := by simp [QuietFor]

variable {ds : List Decision}

theorem QuietFor.mono {m n : Nat} (h : QuietFor n ds) (hle : m ≤ n) : QuietFor m ds := by
  refine ⟨le_trans hle h.1, fun d hd => h.2 d ?_⟩
  exact (List.drop_sublist_drop_left ds (by omega)).subset hd

theorem QuietFor.snoc {n : Nat} {d : Decision} (h : QuietFor n ds) (hd : d.fault = false) :
    QuietFor (n + 1) (ds ++ [d]) := by
  obtain ⟨hlen, hquiet⟩ := h
  refine ⟨by simpa using hlen, fun d' hd' => ?_⟩
  have hcut : (ds ++ [d]).length - (n + 1) = ds.length - n := by
    rw [List.length_append, List.length_singleton]
    omega
  rw [hcut, List.drop_append_of_le_length (by omega), List.mem_append] at hd'
  rcases hd' with hold | hnew
  · exact hquiet d' hold
  · rw [List.mem_singleton.mp hnew]
    exact hd

namespace Controller

variable {F : Type} [OfScientific F] [LE F] [DecidableLE F] [Add F] [Sub F] [Mul F] {c : Controller F}

/-! ## What an epoch does to the count -/

def epoch (c : Controller F) (e : F × F × Time) : Decision × Controller F := c.observe e.1 e.2.1 e.2.2

def Resets (c : Controller F) (now : Time) : Prop := c.dwellOK now = true ∧ c.shrunk < c.beQuota

instance (c : Controller F) (now : Time) : Decidable (c.Resets now) := inferInstanceAs (Decidable (_ ∧ _))

/-- A fault that leaves the count finds nothing counted. -/
def FaultsReset (c : Controller F) (e : F × F × Time) : Prop :=
  c.fault e.1 = true → c.Resets e.2.2 ∨ c.slack ≤ 0

instance (c : Controller F) (e : F × F × Time) : Decidable (c.FaultsReset e) := inferInstanceAs (Decidable (_ → _))

omit [OfScientific F] [LE F] [DecidableLE F] [Add F] [Sub F] [Mul F] in
theorem announce_fault (c : Controller F) (advise would : Action) (dec : Decision) :
    (c.announce advise would dec).fault = dec.fault := by
  unfold announce
  split <;> rfl

omit [OfScientific F] [LE F] [DecidableLE F] [Add F] [Sub F] [Mul F] in
theorem shrink_spec (c : Controller F) (now : Time) (dec : Decision) :
    (c.shrink now dec).1.fault = dec.fault ∧
      (c.shrink now dec).2.slack = (if c.shrunk < c.beQuota then 0 else c.slack) ∧
      ((c.shrink now dec).1.action = .reclaimBe → dec.action = .reclaimBe) := by
  simp only [shrink]
  split
  · refine ⟨announce_fault _ _ _ _, ?_, ?_⟩
    · split <;> rfl
    · unfold announce
      split <;> intro h <;> cases h
  · exact ⟨rfl, rfl, id⟩

omit [OfScientific F] [LE F] [DecidableLE F] [Add F] [Sub F] [Mul F] in
theorem reclaim_spec (c : Controller F) (dwellOK : Bool) (now : Time) (dec : Decision) :
    (c.reclaim dwellOK now dec).1.fault = dec.fault ∧
      ((c.reclaim dwellOK now dec).2.slack = c.slack + 1 ∨ (c.reclaim dwellOK now dec).2.slack = 0) ∧
      ((c.reclaim dwellOK now dec).1.action = .reclaimBe → c.cfg.slackEpochs ≤ c.slack + 1 ∨ dec.action = .reclaimBe) := by
  simp only [reclaim]
  split
  · rename_i hdue
    refine ⟨announce_fault _ _ _ _, ?_, fun _ => .inl hdue.1⟩
    split
    · exact .inr rfl
    · exact .inl rfl
  · exact ⟨rfl, .inl rfl, .inr⟩

theorem observe_fault (c : Controller F) (noise pressure : F) (now : Time) :
    (c.observe noise pressure now).1.fault = c.fault noise := by
  simp only [observe]
  split
  · exact (shrink_spec _ _ _).1
  · split
    · exact (reclaim_spec _ _ _ _).1
    · rfl

theorem observe_slack_of_fault {noise : F} (hf : c.fault noise = true) (pressure : F) (now : Time) :
    (c.observe noise pressure now).2.slack = if c.Resets now then 0 else c.slack := by
  simp only [observe, hf, true_and]
  by_cases hdwell : c.dwellOK now = true
  · rw [if_pos hdwell]
    refine ((c.sampled noise).shrink_spec now _).2.1.trans ?_
    simp only [Resets, hdwell, true_and]
    rfl
  · have hkept : ¬c.Resets now := fun h => hdwell h.1
    rw [if_neg hdwell, if_neg hkept]
    rfl

theorem observe_slack_of_quiet {noise : F} (hf : c.fault noise = false) (pressure : F) (now : Time) :
    (c.observe noise pressure now).2.slack = c.slack + 1 ∨ (c.observe noise pressure now).2.slack = 0 := by
  simp only [observe, hf, Bool.false_eq_true, false_and, if_false, if_true]
  exact ((c.sampled noise).reclaim_spec _ now _).2.1

theorem observe_reclaimBe {noise pressure : F} {now : Time} (h : (c.observe noise pressure now).1.action = .reclaimBe) :
    c.fault noise = false ∧ c.cfg.slackEpochs ≤ c.slack + 1 := by
  simp only [observe] at h
  split at h
  · exact absurd (((c.sampled noise).shrink_spec now _).2.2 h) (by simp)
  · split at h
    · rename_i hf
      refine ⟨hf, (((c.sampled noise).reclaim_spec _ now _).2.2 h).resolve_right ?_⟩
      simp
    · cases h

/-! ## Whole runs -/

def Counts (c : Controller F) (ds : List Decision) : Prop := QuietFor c.slack.toInt.toNat ds

theorem toNat_succ_le (x : Int64) : (x + 1).toInt.toNat ≤ x.toInt.toNat + 1 := by
  have hone : (1 : Int64).toInt = 1 := rfl
  have hx := x.toInt_lt
  have hx' := x.le_toInt
  by_cases hfits : x.toInt + 1 < 2 ^ 63
  · rw [toInt_add_of_fits (by omega) (by omega), hone]
    omega
  · rw [toInt_add_of_overflows (by omega), hone]
    omega

theorem Counts.epoch (h : Counts c ds) {e : F × F × Time} (he : c.FaultsReset e) :
    Counts (c.epoch e).2 (ds ++ [(c.epoch e).1]) := by
  unfold Counts Controller.epoch
  cases hf : c.fault e.1 with
  | true =>
    rw [observe_slack_of_fault hf]
    split
    · exact quietFor_zero _
    · rename_i hkept
      have hnone := Int64.le_iff_toInt_le.mp ((he hf).resolve_left hkept)
      rw [Int.toNat_of_nonpos hnone]
      exact quietFor_zero _
  | false =>
    have hquiet : (c.observe e.1 e.2.1 e.2.2).1.fault = false := (c.observe_fault _ _ _).trans hf
    rcases observe_slack_of_quiet hf e.2.1 e.2.2 with hslack | hslack
    · rw [hslack]
      exact (h.snoc hquiet).mono (toNat_succ_le _)
    · rw [hslack]
      exact quietFor_zero _

theorem Counts.exec (h : Counts c ds) {es : List (F × F × Time)} (hes : along Controller.epoch FaultsReset c es) :
    Counts (exec Controller.epoch c es).2 (ds ++ (exec Controller.epoch c es).1) := by
  induction es generalizing c ds with
  | nil => simpa using h
  | cons e es ih =>
    have hrest := ih (h.epoch hes.1) hes.2
    rwa [List.append_assoc] at hrest

theorem exec_epoch_cfg (c : Controller F) (es : List (F × F × Time)) : (exec Controller.epoch c es).2.cfg = c.cfg := by
  induction es generalizing c with
  | nil => rfl
  | cons e es ih => exact (ih _).trans (c.observe_cfg _ _ _)

end Controller

/-- In every run in which no fault leaves a count behind, a reclaim comes at the end of
    `SlackEpochs` quiet epochs in a row. -/
theorem reclaim_after_quiet {F : Type} [OfScientific F] [LE F] [DecidableLE F] [Add F] [Sub F] [Mul F] [LT F]
    [DecidableLT F] {cfg : Config F} {es : List (F × F × Time)}
    (hes : along Controller.epoch Controller.FaultsReset (.new cfg) es) {pre : List (F × F × Time)} {e : F × F × Time}
    (hpre : pre ++ [e] <+: es) (hreclaim : ((exec Controller.epoch (.new cfg) pre).2.epoch e).1.action = .reclaimBe) :
    QuietFor cfg.filled.slackEpochs.toInt.toNat (exec Controller.epoch (.new cfg) (pre ++ [e])).1 := by
  obtain ⟨post, rfl⟩ := hpre
  rw [List.append_assoc, along_append] at hes
  have hnew : (Controller.new cfg).Counts [] := quietFor_zero _
  have hcounts := hnew.exec hes.1
  rw [List.nil_append] at hcounts
  obtain ⟨hf, hdue⟩ := Controller.observe_reclaimBe hreclaim
  rw [Controller.exec_epoch_cfg] at hdue
  have hquiet := hcounts.snoc ((Controller.observe_fault _ e.1 e.2.1 e.2.2).trans hf)
  rw [exec_append]
  refine hquiet.mono ?_
  have hle := Int64.le_iff_toInt_le.mp hdue
  have hsucc := Controller.toNat_succ_le (exec Controller.epoch (.new cfg) pre).2.slack
  show (Controller.new cfg).cfg.slackEpochs.toInt.toNat ≤ _
  omega

/-- A reclaim after two quiet epochs, of the 90 percent that are also the floor. -/
def slackConfig : Config ℚ :=
  { defaultConfig with mode := .enforce, alpha := 1, slackEpochs := 2, beQuotaPct := 90, beQuotaFloor := 90 }

theorem reclaim_after_two_quiet :
    ((exec Controller.epoch (.new slackConfig) [(0, 0, 10 * second)]).2.epoch (0, 0, 11 * second)).1.action = .reclaimBe ∧
      QuietFor 2 (exec Controller.epoch (.new slackConfig) [(0, 0, 10 * second), (0, 0, 11 * second)]).1 := by
  have hreclaim : ((exec Controller.epoch (.new slackConfig) [(0, 0, 10 * second)]).2.epoch
      (0, 0, 11 * second)).1.action = .reclaimBe := by decide +kernel
  have hes : along Controller.epoch Controller.FaultsReset (.new slackConfig) [(0, 0, 10 * second), (0, 0, 11 * second)] :=
    ⟨by decide +kernel, by decide +kernel, trivial⟩
  exact ⟨hreclaim, reclaim_after_quiet hes List.prefix_rfl hreclaim⟩

/-- A quiet epoch, a fault with the quota at its floor, a quiet epoch: the quota is raised, and
    the fault was one of the last two epochs. -/
theorem a_fault_at_the_floor_counts_as_quiet :
    let run := [(0, 0, 10 * second), (1, 0, 11 * second), (0, 0, 12 * second)]
    (exec Controller.epoch (.new slackConfig) run).1.map (·.fault) = [false, true, false] ∧
      (exec Controller.epoch (.new slackConfig) run).1.map (·.action) = [.none, .none, .reclaimBe] ∧
      (exec Controller.epoch (.new slackConfig) run).2.beQuota = 100 ∧
      ¬QuietFor slackConfig.filled.slackEpochs.toInt.toNat (exec Controller.epoch (.new slackConfig) run).1 :=
  ⟨by decide +kernel, by decide +kernel, by decide +kernel, by decide +kernel⟩

end EliteTelemetry.Dcic
