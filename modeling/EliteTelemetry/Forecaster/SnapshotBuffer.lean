/-
  EliteTelemetry.Forecaster.SnapshotBuffer — scrapes of the forecaster's snapshots while it runs
  (`applySample` of `pkg/forecaster/runner.go` and `Collect` of `pkg/forecaster/collector.go`).

  A tick writes its snapshot into the slot that is not current and then makes it current.
  `Collect` copies the current slot without a lock, and makes its metrics from the copy. Both
  copy a struct of twelve fields; they are taken to copy one field at a time, in any order (the
  cause, a string, as one).

  A scrape shows the snapshot of one tick, the one that was current when it began, if no more than
  one tick has got to its snapshot since (`scrape_shows_one_tick`). Two are enough for a scrape
  that shows a snapshot no tick has made (`overtaken_scrape`).
-/

import EliteTelemetry.Forecaster.Agreement
import EliteTelemetry.Lib.DoubleBuffer
import Mathlib.Data.List.Induction

namespace EliteTelemetry.Forecaster

open EliteTelemetry.Lib.DoubleBuffer EliteTelemetry.Lib.GoNumbers EliteTelemetry.Lib.Machine

/-! ## The metrics of a snapshot -/

structure Metric where
  name : String
  cause : Option Cause
  value : ℚ
  deriving DecidableEq, Repr

/-- What `Collect` makes of its copy, with the mode and the count of faults. -/
def collect (semi : Bool) (faults : Nat) (s : Snapshot) : List Metric :=
  [⟨"elite_predict_latency_ewma_seconds", none, s.ewma⟩,
    ⟨"elite_predict_velocity", none, s.velocity⟩,
    ⟨"elite_predict_acceleration", none, s.acceleration⟩,
    ⟨"elite_predict_projected_5s_seconds", none, s.projected⟩,
    ⟨"elite_predict_fault", none, if s.fault then 1 else 0⟩,
    ⟨"elite_predict_faults_total", none, faults⟩,
    ⟨"elite_predict_mode", none, if semi then 2 else 1⟩,
    ⟨"elite_predict_latency_raw_seconds", none, s.raw⟩,
    ⟨"elite_predict_conn_rate", none, s.connRate⟩,
    ⟨"elite_predict_rho_projected", none, s.rhoProjected⟩,
    ⟨"elite_predict_overload_fraction", none, s.overloadFraction⟩,
    ⟨"elite_predict_shed_ppm", none, s.shedPpm.toNat⟩] ++
  [.network, .llc, .psi, .mixed].map fun cause =>
    ⟨"elite_predict_fault_cause", some cause, if s.fault ∧ s.cause = cause then 1 else 0⟩

/-! ## The fields of a snapshot -/

namespace Snapshot

inductive Field where
  | raw
  | ewma
  | velocity
  | acceleration
  | projected
  | fault
  | cause
  | samples
  | overloadFraction
  | shedPpm
  | rhoProjected
  | connRate
  deriving DecidableEq, Repr

def Field.all : List Field :=
  [.raw, .ewma, .velocity, .acceleration, .projected, .fault, .cause, .samples, .overloadFraction, .shedPpm,
    .rhoProjected, .connRate]

def copyField (f : Field) (src dst : Snapshot) : Snapshot :=
  match f with
  | .raw => { dst with raw := src.raw }
  | .ewma => { dst with ewma := src.ewma }
  | .velocity => { dst with velocity := src.velocity }
  | .acceleration => { dst with acceleration := src.acceleration }
  | .projected => { dst with projected := src.projected }
  | .fault => { dst with fault := src.fault }
  | .cause => { dst with cause := src.cause }
  | .samples => { dst with samples := src.samples }
  | .overloadFraction => { dst with overloadFraction := src.overloadFraction }
  | .shedPpm => { dst with shedPpm := src.shedPpm }
  | .rhoProjected => { dst with rhoProjected := src.rhoProjected }
  | .connRate => { dst with connRate := src.connRate }

theorem copyField_self (f : Field) (src dst : Snapshot) : copyField f (copyField f src dst) src = src := by
  cases f <;> rfl

theorem copyField_of_ne {f g : Field} (h : g ≠ f) (src dst x : Snapshot) :
    copyField g (copyField f src dst) x = copyField g dst x := by
  cases f <;> cases g <;> first | rfl | exact absurd rfl h

theorem eq_of_copyField {a b : Snapshot} (h : ∀ f ∈ Field.all, copyField f a b = b) : a = b := by
  cases a
  cases b
  simp only [Field.all, List.forall_mem_cons, copyField, Snapshot.mk.injEq] at h
  simp [h]

/-- Two snapshots have the same field if copying it changes nothing. -/
def fields : Fields Field Snapshot where
  all := Field.all
  copy := copyField
  Agree := fun f a b => copyField f a b = b
  agree_copy := copyField_self
  agree_copy_of_ne := fun _ _ src dst x h hagree => (copyField_of_ne h src dst x).trans hagree
  eq_of_agree := fun _ _ => eq_of_copyField

end Snapshot

/-! ## Ticks and scrapes -/

structure Node where
  runner : Runner
  buffer : Buffer Snapshot.Field Snapshot

inductive NodeStep where
  /-- A tick gets to where it has its snapshot and starts to write it. -/
  | tick (t : Tick)
  /-- A field is written, the slot is made current, or a scrape goes on. -/
  | buffer (e : Step Snapshot.Field Snapshot)

namespace Node

def start (cfg : Config) (shedder ring : Bool) : Node := ⟨newRunner cfg shedder ring, .start noSnapshot⟩

/-- Ticks come one after another: the next begins when the snapshot of the last is current. -/
def step (cv : Conv) (n : Node) : NodeStep → Option Node
  | .tick t =>
    (n.buffer.step Snapshot.fields noSnapshot (.beginWrite (n.runner.measure cv t).1)).map fun b =>
      ⟨(n.runner.tick cv t).2, b⟩
  | .buffer (.beginWrite _) => none
  | .buffer e => (n.buffer.step Snapshot.fields noSnapshot e).map fun b => ⟨n.runner, b⟩

end Node

def NodeStep.tick? : NodeStep → Option Tick
  | .tick t => some t
  | .buffer _ => none

def ticksOf (es : List NodeStep) : List Tick := es.filterMap NodeStep.tick?

def snapshots (cv : Conv) (r : Runner) (ts : List Tick) : List Snapshot := (exec (Runner.tick cv) r ts).1.map (·.snap)

namespace Node

variable {cv : Conv} {cfg : Config} {shedder ring : Bool} {n : Node}

def written (b : Buffer Snapshot.Field Snapshot) : List Snapshot := b.published ++ (b.writer.map (·.1)).toList

theorem written_step {b b' : Buffer Snapshot.Field Snapshot} {e : Step Snapshot.Field Snapshot}
    (he : ∀ s, e ≠ .beginWrite s) (h : b.step Snapshot.fields noSnapshot e = some b') : written b' = written b := by
  cases e with
  | beginWrite s => exact absurd rfl (he s)
  | writeField f =>
    simp only [Buffer.step] at h
    split at h
    · rename_i s left hw
      split at h
      · cases h
        simp [written, hw]
      · cases h
    · cases h
  | publish =>
    simp only [Buffer.step] at h
    split at h
    · rename_i s hw
      cases h
      simp [written, hw]
    · cases h
  | read r e =>
    obtain ⟨reader, -, rfl⟩ := Option.map_eq_some_iff.mp h
    rfl

theorem snapshots_snoc (cv : Conv) (r : Runner) (ts : List Tick) (t : Tick) :
    snapshots cv r (ts ++ [t]) = snapshots cv r ts ++ [((exec (Runner.tick cv) r ts).2.measure cv t).1] := by
  rw [snapshots, exec_append, List.map_append]
  rfl

structure Follows (cv : Conv) (r : Runner) (ts : List Tick) (n : Node) : Prop where
  runner : n.runner = (exec (Runner.tick cv) r ts).2
  written : written n.buffer = snapshots cv r ts
  inv : Buffer.Inv Snapshot.fields noSnapshot n.buffer

theorem follows_step {r : Runner} {ts : List Tick} {n n' : Node} {e : NodeStep} (h : n.step cv e = some n')
    (hn : Follows cv r ts n) : Follows cv r (ts ++ e.tick?.toList) n' := by
  cases e with
  | tick t =>
    obtain ⟨b, hb, rfl⟩ := Option.map_eq_some_iff.mp h
    refine ⟨?_, ?_, Buffer.inv_step _ _ _ hb hn.inv⟩
    · rw [show NodeStep.tick? (.tick t) = some t from rfl, Option.toList_some, exec_append, hn.runner]
      rfl
    · rw [show NodeStep.tick? (.tick t) = some t from rfl, Option.toList_some, snapshots_snoc, ← hn.runner,
        ← hn.written]
      simp only [Buffer.step] at hb
      split at hb
      · rename_i hw
        cases hb
        simp [Node.written, hw]
      · cases hb
  | buffer e =>
    have hsplit : (∀ s, e ≠ .beginWrite s) ∧
        (n.buffer.step Snapshot.fields noSnapshot e).map (fun b => (⟨n.runner, b⟩ : Node)) = some n' := by
      cases e with
      | beginWrite s => cases h
      | _ => exact ⟨fun _ heq => (by cases heq), h⟩
    obtain ⟨b, hb, rfl⟩ := Option.map_eq_some_iff.mp hsplit.2
    rw [show NodeStep.tick? (.buffer e) = none from rfl, Option.toList_none, List.append_nil]
    exact ⟨hn.runner, (written_step hsplit.1 hb).trans hn.written, Buffer.inv_step _ _ _ hb hn.inv⟩

theorem follows_run {es : List NodeStep} (h : runs (step cv) (start cfg shedder ring) es = some n) :
    Follows cv (newRunner cfg shedder ring) (ticksOf es) n := by
  induction es using List.reverseRecOn generalizing n with
  | nil =>
    cases h
    exact ⟨rfl, rfl, Buffer.inv_start⟩
  | append_singleton es e ih =>
    obtain ⟨u, hu, hstep⟩ := runs_snoc.mp h
    have hfollows := follows_step hstep (ih hu)
    have hticks : ticksOf (es ++ [e]) = ticksOf es ++ e.tick?.toList := by
      rw [ticksOf, List.filterMap_append]
      cases htick : e.tick? <;> simp [ticksOf, htick]
    rw [hticks]
    exact hfollows

/-- Whatever the order of the steps: the metrics that a scrape makes of its copy are those of the
    snapshot that was current when it began, one of the runner's ticks, if no more than one tick has
    begun to write since. -/
theorem scrape_shows_one_tick {es : List NodeStep} (h : runs (step cv) (start cfg shedder ring) es = some n)
    {r nr : Nat} {slot : Bool} {copied : Snapshot} (hr : n.buffer.readers r = .copying slot nr copied [])
    (hle : n.buffer.begun ≤ nr + 1) (faults : Nat) :
    ((noSnapshot :: snapshots cv (newRunner cfg shedder ring) (ticksOf es)).map (collect cfg.semi faults))[nr]? =
      some (collect cfg.semi faults copied) := by
  have hfollows := follows_run h
  have hnr : nr < (noSnapshot :: n.buffer.published).length := by
    have hnr := (hfollows.inv.reading r slot nr copied [] hr).1
    simp only [List.length_cons]
    omega
  rw [List.getElem?_map, ← hfollows.written, Node.written, ← List.cons_append, List.getElem?_append_left hnr]
  exact congrArg _ (hfollows.inv.copied_whole hr hle)

/-! ## A scrape that is overtaken -/

/-- A scrape has begun before the first of two ticks, and has read nothing when that tick has made its
    snapshot current. -/
def loaded : List NodeStep :=
  [.buffer (.read 0 .load), .tick (connTick 1 1000)] ++ Snapshot.Field.all.map (.buffer <| .writeField ·) ++
    [.buffer .publish]

def readAll : List NodeStep := Snapshot.Field.all.map (.buffer <| .read 0 <| .field ·)

def after (es : List NodeStep) : Option Node := runs (step saturating) (start trafficConfig false false) es

/-- The second tick has written one field where the scrape reads. -/
def overtaken : List NodeStep :=
  loaded ++ [.tick (connTick 2 101000), .buffer (.writeField .connRate)] ++ readAll

theorem loaded_read_isSome : (after (loaded ++ readAll)).isSome := by decide +kernel

theorem scrape_shows_one_tick_of_one_tick :
    ((noSnapshot :: snapshots saturating (newRunner trafficConfig false false) (ticksOf (loaded ++ readAll))).map
      (collect false 0))[0]? = some (collect false 0 noSnapshot) := by
  have hruns : after (loaded ++ readAll) = some ((after (loaded ++ readAll)).get loaded_read_isSome) :=
    (Option.some_get _).symm
  have hreader : ((after (loaded ++ readAll)).get loaded_read_isSome).buffer.readers 0 =
      .copying false 0 noSnapshot [] := by
    decide +kernel
  exact scrape_shows_one_tick hruns hreader (by decide +kernel) 0

/-- The scrape that is overtaken shows a rate of connections without the load it comes to: the snapshot of no tick. -/
theorem overtaken_scrape :
    ∃ copied, (after overtaken).map (·.buffer.readers 0) = some (.copying false 0 copied []) ∧
      collect false 0 copied ∉
        (noSnapshot :: snapshots saturating (newRunner trafficConfig false false) (ticksOf overtaken)).map
          (collect false 0) :=
  ⟨{ noSnapshot with connRate := 30000 }, by decide +kernel, by decide +kernel⟩

end Node

end EliteTelemetry.Forecaster
