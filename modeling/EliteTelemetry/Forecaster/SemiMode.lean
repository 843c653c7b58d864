/-
  EliteTelemetry.Forecaster.SemiMode — shedding and restoring the event probes
  (`applySample`, `maybeShed` and `maybeRestore` of `pkg/forecaster/runner.go`).

  In semi mode a fault that begins sheds the event probes, and they are restored once the
  cooldown has passed. Either call may fail. `shedding` is set before the shed is tried and
  taken back where it fails; a restore that fails leaves it set.

  The rule (`Obeys`): the probes are shed only where they are not, and a restore is tried only
  where they are and more than a cooldown ago were. `run_obeys` says that every run of ticks
  keeps to it, with `shedding` and `restoreAfter` as the record of the last call that
  succeeded (`Records`), whatever the samples are and whichever calls fail.
  `semi_mode_alternates` reads off what follows: sheds and restores that succeed alternate, a
  restore waits for the cooldown, and one that fails is tried again at every tick until it
  succeeds.
-/

import EliteTelemetry.Forecaster.Agreement
import Mathlib.Data.List.Induction

namespace EliteTelemetry.Forecaster

open EliteTelemetry.Lib.GoNumbers EliteTelemetry.Lib.Machine

/-! ## The rule -/

inductive ShedOp where
  | shed
  | restore
  deriving DecidableEq, Repr

def ShedOp.other : ShedOp → ShedOp
  | .shed => .restore
  | .restore => .shed

structure ShedCall where
  op : ShedOp
  now : Time
  ok : Bool
  deriving DecidableEq, Repr

/-- Since when the probes are shed after the call, if they are. -/
def ShedCall.after (c : ShedCall) (since : Option Time) : Option Time :=
  if c.ok then
    match c.op with
    | .shed => some c.now
    | .restore => none
  else since

def ShedCall.Allowed (cooldown : Duration) (since : Option Time) (c : ShedCall) : Prop :=
  match c.op with
  | .shed => since = none
  | .restore => ∃ s, since = some s ∧ s + cooldown < c.now

def shedSince (since : Option Time) (cs : List ShedCall) : Option Time := cs.foldl (fun s c => c.after s) since

/-- Every call is made where it is allowed. -/
def Obeys (cooldown : Duration) : Option Time → List ShedCall → Prop
  | _, [] => True
  | since, c :: cs => c.Allowed cooldown since ∧ Obeys cooldown (c.after since) cs

def successes (cs : List ShedCall) : List ShedCall := cs.filter (·.ok)

/-- One after the other in turn, beginning with `next`. -/
def Alternates (next : ShedOp) : List ShedOp → Prop
  | [] => True
  | op :: ops => op = next ∧ Alternates next.other ops

section Rule

variable {cooldown : Duration} {since : Option Time}

theorem obeys_append (cs ds : List ShedCall) :
    Obeys cooldown since (cs ++ ds) ↔ Obeys cooldown since cs ∧ Obeys cooldown (shedSince since cs) ds := by
  induction cs generalizing since with
  | nil => exact (true_and _).symm.to_iff
  | cons c cs ih =>
    show _ ∧ Obeys cooldown _ (cs ++ ds) ↔ (_ ∧ _) ∧ _
    rw [ih, and_assoc]
    rfl

theorem shedSince_append (cs ds : List ShedCall) : shedSince since (cs ++ ds) = shedSince (shedSince since cs) ds :=
  List.foldl_append

theorem alternates_of_obeys {cs : List ShedCall} (h : Obeys cooldown since cs) :
    Alternates (if since.isSome then .restore else .shed) ((successes cs).map (·.op)) := by
  induction cs generalizing since with
  | nil => trivial
  | cons c cs ih =>
    obtain ⟨hallowed, hrest⟩ := h
    have hih := ih hrest
    unfold ShedCall.Allowed at hallowed
    unfold ShedCall.after at hih
    cases hok : c.ok with
    | false => simpa [successes, hok] using hih
    | true =>
      cases hop : c.op with
      | shed =>
        rw [hop] at hallowed
        subst hallowed
        simpa [successes, hok, hop, Alternates, ShedOp.other] using hih
      | restore =>
        rw [hop] at hallowed
        obtain ⟨s, rfl, -⟩ := hallowed
        simpa [successes, hok, hop, Alternates, ShedOp.other] using hih

/-- The probes are shed where the last call that succeeded was a shed. -/
theorem shedSince_eq_some_iff {cs : List ShedCall} {s : Time} :
    shedSince none cs = some s ↔ (successes cs).getLast? = some ⟨.shed, s, true⟩ := by
  induction cs using List.reverseRecOn with
  | nil => simp [shedSince, successes]
  | append_singleton cs c ih =>
    have hsucc : successes (cs ++ [c]) = successes cs ++ if c.ok then [c] else [] := by
      simp [successes, List.filter_append, List.filter_cons]
    rw [shedSince_append, hsucc]
    show c.after (shedSince none cs) = some s ↔ _
    unfold ShedCall.after
    cases hok : c.ok with
    | false => simpa using ih
    | true =>
      obtain ⟨op, now, ok⟩ := c
      obtain rfl : ok = true := hok
      cases op <;> simp

end Rule

/-! ## One tick -/

def Published.calls (p : Published) (now : Time) : List ShedCall :=
  (p.shed.map (⟨.shed, now, ·⟩)).toList ++ (p.restored.map (⟨.restore, now, ·⟩)).toList

variable {r : Runner}

namespace Runner

/-- The runner's fields say since when the probes are shed. -/
structure Records (r : Runner) (since : Option Time) : Prop where
  shedding : r.shedding = since.isSome
  restoreAfter : ∀ s, since = some s → r.restoreAfter = some (s + r.cfg.semiCooldown)

theorem Records.congr {r' : Runner} {since : Option Time} (h : r.Records since) (hcfg : r'.cfg = r.cfg)
    (hshedding : r'.shedding = r.shedding) (hafter : r'.restoreAfter = r.restoreAfter) : r'.Records since :=
  ⟨hshedding.trans h.shedding, fun s hs => by rw [hafter, hcfg]; exact h.restoreAfter s hs⟩

def acting (cv : Conv) (r : Runner) (t : Tick) : Runner := ((r.measure cv t).2.publish cv t (r.measure cv t).1).2

theorem acting_cfg (cv : Conv) (r : Runner) (t : Tick) : (r.acting cv t).cfg = r.cfg := by
  show (r.measure cv t).2.cfg = r.cfg
  simp only [measure]
  split <;> rfl

theorem acting_records (cv : Conv) {since : Option Time} (h : r.Records since) (t : Tick) :
    (r.acting cv t).Records since := by
  refine h.congr (acting_cfg cv r t) ?_ ?_
  · show (r.measure cv t).2.shedding = r.shedding
    simp only [measure]
    split <;> rfl
  · show (r.measure cv t).2.restoreAfter = r.restoreAfter
    simp only [measure]
    split <;> rfl

theorem actOnFault_cfg (r : Runner) (t : Tick) (p : Published) : (r.actOnFault t p).2.cfg = r.cfg := by
  simp only [actOnFault, apply_ite Runner.cfg, ite_self]

def Sheds (r : Runner) (p : Published) : Prop :=
  (p.snap.fault ∧ ¬ r.prevFault) ∧ r.cfg.semi ∧ r.shedder ∧ shouldShedEvents p.snap.cause ∧ ¬ r.shedding

instance (r : Runner) (p : Published) : Decidable (r.Sheds p) := inferInstanceAs (Decidable (_ ∧ _))

def afterShed (r : Runner) (t : Tick) (p : Published) : Runner :=
  let r' := { r with
    faults := if p.snap.fault ∧ ¬ r.prevFault then r.faults + 1 else r.faults
    prevFault := p.snap.fault }
  if r.Sheds p then
    if t.shedOk then { r' with shedding := true, restoreAfter := some (t.now + r.cfg.semiCooldown) }
    else { r' with shedding := false, restoreAfter := none }
  else r'

def Restores (r : Runner) (now : Time) : Prop := r.shedding ∧ r.restoreAfter.any (· < now)

instance (r : Runner) (now : Time) : Decidable (r.Restores now) := inferInstanceAs (Decidable (_ ∧ _))

theorem actOnFault_eq (r : Runner) (t : Tick) (p : Published) :
    r.actOnFault t p =
      ({ p with
          shed := if r.Sheds p then some t.shedOk else none,
          restored := if (r.afterShed t p).Restores t.now then some t.restoreOk else none },
        if (r.afterShed t p).Restores t.now ∧ t.restoreOk then
          { r.afterShed t p with shedding := false, restoreAfter := none }
        else r.afterShed t p) := rfl

theorem afterShed_cfg (r : Runner) (t : Tick) (p : Published) : (r.afterShed t p).cfg = r.cfg := by
  simp only [afterShed, apply_ite Runner.cfg, ite_self]

theorem since_none_of_sheds {since : Option Time} (h : r.Records since) {p : Published} (hsheds : r.Sheds p) :
    since = none := by
  have hnot : r.shedding = false := by simpa using hsheds.2.2.2.2
  simpa using hnot.symm.trans h.shedding

theorem afterShed_records {since : Option Time} (h : r.Records since) (t : Tick) (p : Published) :
    (r.afterShed t p).Records (if r.Sheds p ∧ t.shedOk then some t.now else since) := by
  unfold afterShed
  by_cases hsheds : r.Sheds p
  · cases hok : t.shedOk with
    | true =>
      simp only [hsheds, and_self, if_true]
      refine ⟨rfl, fun s hs => ?_⟩
      cases hs
      rfl
    | false =>
      -- nothing was shed before, and nothing is now
      simp only [hsheds, Bool.false_eq_true, and_false, if_true, if_false]
      obtain rfl := since_none_of_sheds h hsheds
      exact ⟨rfl, fun s hs => (by cases hs)⟩
  · simp only [hsheds, false_and, if_false]
    exact h.congr rfl rfl rfl

theorem restores_iff {since : Option Time} (h : r.Records since) (now : Time) :
    r.Restores now ↔ ∃ s, since = some s ∧ s + r.cfg.semiCooldown < now := by
  unfold Restores
  rw [h.shedding]
  cases since with
  | none => simp
  | some s => simp [h.restoreAfter s rfl]

theorem shed_obeys {since : Option Time} (h : r.Records since) (cooldown : Duration) (t : Tick) (p : Published) :
    let cs := ((if r.Sheds p then some t.shedOk else none).map (ShedCall.mk .shed t.now)).toList
    Obeys cooldown since cs ∧ shedSince since cs = if r.Sheds p ∧ t.shedOk then some t.now else since := by
  by_cases hsheds : r.Sheds p
  · simp only [hsheds, if_true, Option.map_some, Option.toList_some, true_and]
    exact ⟨⟨since_none_of_sheds h hsheds, trivial⟩, rfl⟩
  · simp only [hsheds, if_false, Option.map_none, Option.toList_none, false_and]
    exact ⟨trivial, rfl⟩

theorem restore_obeys {since : Option Time} (h : r.Records since) (t : Tick) :
    let cs := ((if r.Restores t.now then some t.restoreOk else none).map (ShedCall.mk .restore t.now)).toList
    Obeys r.cfg.semiCooldown since cs ∧
      (if r.Restores t.now ∧ t.restoreOk then { r with shedding := false, restoreAfter := none } else r).Records
        (shedSince since cs) := by
  by_cases hdue : r.Restores t.now
  · have hallowed := (restores_iff h t.now).mp hdue
    simp only [hdue, if_true, Option.map_some, Option.toList_some, true_and]
    refine ⟨⟨hallowed, trivial⟩, ?_⟩
    cases hok : t.restoreOk with
    | true => exact ⟨rfl, fun s hs => (by cases hs)⟩
    | false => exact h
  · simp only [hdue, if_false, Option.map_none, Option.toList_none, false_and]
    exact ⟨trivial, h⟩

theorem tick_obeys (cv : Conv) {since : Option Time} (h : r.Records since) (t : Tick) :
    let cs := (r.tick cv t).1.calls t.now
    Obeys r.cfg.semiCooldown since cs ∧ (r.tick cv t).2.Records (shedSince since cs) := by
  have hacting := acting_records cv h t
  let p := ((r.measure cv t).2.publish cv t (r.measure cv t).1).1
  have htick : r.tick cv t = (r.acting cv t).actOnFault t p := rfl
  obtain ⟨hshed, hsince⟩ := shed_obeys hacting r.cfg.semiCooldown t p
  obtain ⟨hrestore, hrecords⟩ := restore_obeys (afterShed_records hacting t p) t
  rw [← hsince] at hrestore hrecords
  rw [afterShed_cfg, acting_cfg] at hrestore
  rw [htick, actOnFault_eq]
  simp only [Published.calls, obeys_append, shedSince_append]
  exact ⟨⟨hshed, hrestore⟩, hrecords⟩

theorem tick_cfg (cv : Conv) (r : Runner) (t : Tick) : (r.tick cv t).2.cfg = r.cfg :=
  (actOnFault_cfg _ _ _).trans (acting_cfg cv r t)

/-- Where the probes are shed and a restore is due, it is tried and nothing else is. -/
theorem tick_restores (cv : Conv) {s : Time} (h : r.Records (some s)) {t : Tick}
    (hdue : s + r.cfg.semiCooldown < t.now) :
    (r.tick cv t).1.shed = none ∧ (r.tick cv t).1.restored = some t.restoreOk := by
  have hacting := acting_records cv h t
  let p := ((r.measure cv t).2.publish cv t (r.measure cv t).1).1
  have hmid := afterShed_records hacting t p
  have hnot : ¬ (r.acting cv t).Sheds p := fun hsheds => by cases since_none_of_sheds hacting hsheds
  rw [if_neg fun hand => hnot hand.1] at hmid
  have hrestores : ((r.acting cv t).afterShed t p).Restores t.now := by
    rw [restores_iff hmid, afterShed_cfg, acting_cfg]
    exact ⟨s, rfl, hdue⟩
  exact ⟨if_neg hnot, if_pos hrestores⟩

theorem due_of_failed (cv : Conv) {since : Option Time} (h : r.Records since) {t : Tick}
    (hfailed : (r.tick cv t).1.restored = some false) :
    ∃ s, (r.tick cv t).2.Records (some s) ∧ s + r.cfg.semiCooldown < t.now := by
  obtain ⟨hobeys, hrecords⟩ := tick_obeys cv h t
  rw [Published.calls, hfailed] at hobeys hrecords
  obtain ⟨s, hsince, hdue⟩ := ((obeys_append _ _).mp hobeys).2.1
  rw [shedSince_append, hsince] at hrecords
  exact ⟨s, hrecords, hdue⟩

end Runner

/-! ## Whole runs -/

def callsOf (ts : List Tick) (ps : List Published) : List ShedCall := (ts.zipWith (fun t p => p.calls t.now) ps).flatten

namespace Runner

theorem exec_cfg (cv : Conv) (r : Runner) (ts : List Tick) : (exec (tick cv) r ts).2.cfg = r.cfg := by
  induction ts generalizing r with
  | nil => rfl
  | cons t ts ih => exact (ih _).trans (tick_cfg cv r t)

theorem run_obeys (cv : Conv) {since : Option Time} (h : r.Records since) (ts : List Tick) :
    let cs := callsOf ts (exec (tick cv) r ts).1
    Obeys r.cfg.semiCooldown since cs ∧ (exec (tick cv) r ts).2.Records (shedSince since cs) := by
  induction ts generalizing r since with
  | nil => exact ⟨trivial, h⟩
  | cons t ts ih =>
    obtain ⟨hobeys, hrecords⟩ := tick_obeys cv h t
    have hrest := ih hrecords
    rw [tick_cfg] at hrest
    simp only [callsOf, exec_cons, List.zipWith_cons_cons, List.flatten_cons, obeys_append, shedSince_append]
    exact ⟨⟨hobeys, hrest.1⟩, hrest.2⟩

theorem restore_stays_due (cv : Conv) {s : Time} (h : r.Records (some s)) {ts : List Tick}
    (hdue : ∀ t ∈ ts, s + r.cfg.semiCooldown < t.now) (hfails : ∀ p ∈ (exec (tick cv) r ts).1, p.restored ≠ some true) :
    (exec (tick cv) r ts).2.Records (some s) := by
  induction ts generalizing r with
  | nil => exact h
  | cons t ts ih =>
    obtain ⟨hshed, hrestored⟩ := tick_restores cv h (hdue t (by simp))
    have hfail : t.restoreOk = false := by
      simpa [hrestored] using hfails (r.tick cv t).1 (by simp)
    have hrecords := (tick_obeys cv h t).2
    have hsince : shedSince (some s) ((r.tick cv t).1.calls t.now) = some s := by
      rw [Published.calls, hshed, hrestored, hfail]
      rfl
    rw [hsince] at hrecords
    refine ih hrecords (fun t' ht' => ?_) fun p hp => hfails p (by simp [hp])
    rw [tick_cfg]
    exact hdue t' (by simp [ht'])

end Runner

theorem newRunner_records (cfg : Config) (shedder ring : Bool) : (newRunner cfg shedder ring).Records none :=
  ⟨rfl, fun s hs => by cases hs⟩

/-- Over every run of a new runner, with times that do not fall: the calls that succeed are
    sheds and restores in turn, beginning with a shed; `shedding` says that the last of them was
    a shed; a restore is tried only after it, by more than the cooldown; and one that fails is
    tried again at every tick until one succeeds. -/
theorem semi_mode_alternates (cv : Conv) (cfg : Config) (shedder ring : Bool) {ts : List Tick}
    (htimes : ts.Pairwise (·.now ≤ ·.now)) :
    let r := newRunner cfg shedder ring
    let cs := callsOf ts (exec (Runner.tick cv) r ts).1
    Alternates .shed ((successes cs).map (·.op)) ∧
      ((exec (Runner.tick cv) r ts).2.shedding = true ↔ ∃ s, (successes cs).getLast? = some ⟨.shed, s, true⟩) ∧
      (∀ pre now ok post, cs = pre ++ ⟨.restore, now, ok⟩ :: post →
        ∃ s, (successes pre).getLast? = some ⟨.shed, s, true⟩ ∧ s + cfg.filled.semiCooldown < now) ∧
      (∀ pre t mid t' post, ts = pre ++ t :: (mid ++ t' :: post) →
        ((exec (Runner.tick cv) r pre).2.tick cv t).1.restored = some false →
        (∀ p ∈ (exec (Runner.tick cv) (exec (Runner.tick cv) r (pre ++ [t])).2 mid).1, p.restored ≠ some true) →
        ((exec (Runner.tick cv) r (pre ++ t :: mid)).2.tick cv t').1.restored = some t'.restoreOk) := by
  intro r cs
  have hnew := newRunner_records cfg shedder ring
  obtain ⟨hobeys, hrecords⟩ := Runner.run_obeys cv hnew ts
  refine ⟨alternates_of_obeys hobeys, ?_, ?_, ?_⟩
  · rw [hrecords.shedding, Option.isSome_iff_exists]
    exact exists_congr fun s => shedSince_eq_some_iff
  · intro pre now ok post hcs
    rw [show callsOf ts (exec (Runner.tick cv) r ts).1 = pre ++ ⟨.restore, now, ok⟩ :: post from hcs, obeys_append]
      at hobeys
    obtain ⟨s, hsince, hdue⟩ := hobeys.2.1
    exact ⟨s, shedSince_eq_some_iff.mp hsince, hdue⟩
  · intro pre t mid t' post hts hfailed hmid
    obtain ⟨s, hdue, hlate⟩ := Runner.due_of_failed cv (Runner.run_obeys cv hnew pre).2 hfailed
    have hstep : (exec (Runner.tick cv) r (pre ++ [t])).2 = ((exec (Runner.tick cv) r pre).2.tick cv t).2 := by
      rw [exec_append]
      rfl
    have hrun : (exec (Runner.tick cv) r (pre ++ t :: mid)).2 =
        (exec (Runner.tick cv) ((exec (Runner.tick cv) r pre).2.tick cv t).2 mid).2 := by
      rw [exec_append]
      rfl
    rw [hstep] at hmid
    -- the times of the ticks that follow are no earlier
    have hafter : ∀ t'' ∈ mid ++ t' :: post, t.now ≤ t''.now := by
      rw [hts] at htimes
      exact (List.pairwise_cons.mp (List.pairwise_append.mp htimes).2.1).1
    rw [← Runner.tick_cfg cv] at hlate
    have hstays := Runner.restore_stays_due cv hdue
      (fun t'' ht'' => lt_of_lt_of_le hlate (hafter t'' (by simp [ht'']))) hmid
    rw [hrun]
    refine (Runner.tick_restores cv hstays ?_).2
    rw [Runner.exec_cfg]
    exact lt_of_lt_of_le hlate (hafter t' (by simp))

/-- Semi mode with a cooldown of ten seconds, and the latency alone. -/
def semiConfig : Config := { trafficConfig with semi := true, semiCooldown := 10 * second, trafficEnabled := false }

def latencyTick (n : Nat) (latency : ℚ) (restoreOk : Bool) : Tick :=
  { connTick n 0 with net := some latency, restoreOk := restoreOk }

/-- Shed at the second tick, restored at the fourth after a failure at the third. -/
theorem semi_mode_alternates_once :
    let ts := [latencyTick 1 0 true, latencyTick 2 1 true, latencyTick 13 0 false, latencyTick 14 0 true]
    let cs := callsOf ts (exec (Runner.tick saturating) (newRunner semiConfig true false) ts).1
    cs = [⟨.shed, 2 * second, true⟩, ⟨.restore, 13 * second, false⟩, ⟨.restore, 14 * second, true⟩] ∧
      Alternates .shed ((successes cs).map (·.op)) :=
  ⟨by decide +kernel, (semi_mode_alternates saturating semiConfig true false (by decide)).1⟩

end EliteTelemetry.Forecaster
