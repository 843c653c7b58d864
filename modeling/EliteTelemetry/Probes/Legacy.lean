/-
  EliteTelemetry.Probes.Legacy — metrics counted by network namespace (`probe/legacy.go`,
  `legacyBatchMetrics`).

  A legacy collector returns, for each metric, values by namespace number. `Collect` emits
  each value under the labels of the entity the number stands for: the node, the pod's
  namespace and name, and what the configuration adds from the pod's labels. Numbers are
  unique; what they stand for is not. A scrape has no two samples alike exactly where no
  metric has values under two numbers that stand for one identity (`legacy_samples_apart_iff`).
-/

import EliteTelemetry.Lib.BpfMaps
import EliteTelemetry.Nettop.EntityCache
import EliteTelemetry.Probes.Labels

namespace EliteTelemetry.Probes.Legacy

open EliteTelemetry.Lib.BpfMaps
open EliteTelemetry.Nettop
open EliteTelemetry.Lib (ExpiringApi)
open EliteTelemetry.Probes.Labels

/-- What is used of `prometheus.BuildFQName`: it keeps names apart. -/
structure FQNames where
  buildFQName : String → String → String → String
  injective : ∀ metricsNamespace subsystem, (buildFQName metricsNamespace subsystem).Injective

structure BatchMetrics where
  metricsNamespace : String
  moduleName : String
  metrics : List String

def BatchMetrics.newMetricsName (l : BatchMetrics) (fq : FQNames) (name : String) : String :=
  fq.buildFQName l.metricsNamespace l.moduleName name

def BatchMetrics.descs (l : BatchMetrics) (fq : FQNames) : List String := l.metrics.map (l.newMetricsName fq)

abbrev Counts := AList fun _ : UInt32 => UInt64
abbrev Data := AList fun _ : String => Counts

section Collect

variable (fq : FQNames) {C : Type} (api : ExpiringApi C Nat Entity) (l : BatchMetrics) (nodeName : String)
  (extra : List (String × String) → List String)

/-- `appendStandardMetricsLabelValues`; `extra` is what the configuration adds from the labels
    of a pod. -/
def labelValues (e : Entity) : List String := nodeName :: e.podNamespace :: e.podName :: extra e.labels

def emit (name : String) (labels : List String) (value : UInt64) : Option (Sample (List String)) :=
  if name ∈ l.descs fq then some ⟨name, labels, value.toNat⟩ else none

def sampleOf (st : State C) (now : Nat) (name : String) (nsinum : UInt32) (value : UInt64) :
    Option (Sample (List String)) :=
  match getEntityByNetns api st now nsinum.toNat with
  | none => none
  | some et => emit fq l name (labelValues nodeName extra et) value

/-- `Collect`; `data` is `none` where the collector failed. -/
def collect (st : State C) (now : Nat) (data : Option Data) : List (Sample (List String)) :=
  match data with
  | none => []
  | some data =>
    data.entries.flatMap fun metric =>
      metric.2.entries.filterMap fun count =>
        sampleOf fq api l nodeName extra st now (l.newMetricsName fq metric.1) count.1 count.2

/-- Entities that a metric's labels do not tell apart. -/
def SameIdentity (d e : Entity) : Prop :=
  d.podNamespace = e.podNamespace ∧ d.podName = e.podName ∧ extra d.labels = extra e.labels

theorem labelValues_eq_iff (d e : Entity) :
    labelValues nodeName extra d = labelValues nodeName extra e ↔ SameIdentity extra d e := by
  simp [labelValues, SameIdentity]

theorem sampleOf_eq_some_iff (st : State C) (now : Nat) (name : String) (nsinum : UInt32) (value : UInt64)
    (s : Sample (List String)) :
    sampleOf fq api l nodeName extra st now name nsinum value = some s ↔
      name ∈ l.descs fq ∧ ∃ e, getEntityByNetns api st now nsinum.toNat = some e ∧
        s = ⟨name, labelValues nodeName extra e, value.toNat⟩ := by
  unfold sampleOf emit
  cases getEntityByNetns api st now nsinum.toNat with
  | none => simp
  | some e =>
    by_cases hname : name ∈ l.descs fq
    · simp [hname, eq_comm]
    · simp [hname]

/-- Two values of a metric give samples alike exactly where their numbers stand for one
    identity. -/
theorem sampleOf_apart_iff (st : State C) (now : Nat) {name : String} (hname : name ∈ l.descs fq) (m n : UInt32)
    (v w : UInt64) :
    (∀ s, sampleOf fq api l nodeName extra st now name m v = some s →
        ∀ s', sampleOf fq api l nodeName extra st now name n w = some s' → Apart s s') ↔
      ∀ d e, getEntityByNetns api st now m.toNat = some d → getEntityByNetns api st now n.toNat = some e →
        ¬SameIdentity extra d e := by
  simp only [sampleOf_eq_some_iff, hname, true_and]
  constructor
  · intro h d e hd he hsame
    exact h _ ⟨d, hd, rfl⟩ _ ⟨e, he, rfl⟩ ⟨rfl, (labelValues_eq_iff nodeName extra d e).mpr hsame⟩
  · rintro h _ ⟨d, hd, rfl⟩ _ ⟨e, he, rfl⟩ ⟨-, hlabels⟩
    exact h d e hd he ((labelValues_eq_iff nodeName extra d e).mp hlabels)

theorem metric_apart_iff (st : State C) (now : Nat) (name : String) (counts : Counts) :
    (counts.entries.filterMap fun c => sampleOf fq api l nodeName extra st now name c.1 c.2).Pairwise Apart ↔
      (name ∈ l.descs fq → ∀ m ∈ counts, ∀ n ∈ counts, m ≠ n → ∀ d e, getEntityByNetns api st now m.toNat = some d →
        getEntityByNetns api st now n.toNat = some e → ¬SameIdentity extra d e) := by
  rw [List.pairwise_filterMap]
  by_cases hname : name ∈ l.descs fq
  · simp only [sampleOf_apart_iff fq api l nodeName extra st now hname]
    rw [Table.pairwise_entries_iff counts fun m n => ∀ d e, getEntityByNetns api st now m.toNat = some d →
        getEntityByNetns api st now n.toNat = some e → ¬SameIdentity extra d e]
    · exact ⟨fun h _ => h, fun h => h hname⟩
    · intro m n h d e hd he hsame
      exact h e d he hd ⟨hsame.1.symm, hsame.2.1.symm, hsame.2.2.symm⟩
  · refine iff_of_true (List.pairwise_of_forall fun a b s hs => ?_) fun h => absurd h hname
    exact absurd ((sampleOf_eq_some_iff fq api l nodeName extra st now _ _ _ _).mp hs).1 hname

theorem metrics_apart (st : State C) (now : Nat) (data : Data) :
    data.entries.Pairwise fun a b =>
      ∀ s ∈ a.2.entries.filterMap fun c => sampleOf fq api l nodeName extra st now (l.newMetricsName fq a.1) c.1 c.2,
        ∀ s' ∈ b.2.entries.filterMap fun c => sampleOf fq api l nodeName extra st now (l.newMetricsName fq b.1) c.1 c.2,
          Apart s s' := by
  refine (List.nodupKeys_iff_pairwise.mp data.nodupKeys).imp fun {a b} hne s hs s' hs' happ => hne ?_
  obtain ⟨c, -, hc⟩ := List.mem_filterMap.mp hs
  obtain ⟨c', -, hc'⟩ := List.mem_filterMap.mp hs'
  obtain ⟨-, e, -, rfl⟩ := (sampleOf_eq_some_iff fq api l nodeName extra st now _ _ _ _).mp hc
  obtain ⟨-, e', -, rfl⟩ := (sampleOf_eq_some_iff fq api l nodeName extra st now _ _ _ _).mp hc'
  exact fq.injective _ _ happ.1

/-- Whatever pods came and went: a scrape has no two samples alike exactly where no metric
    has values under two numbers that stand, at that time, for one identity. -/
theorem legacy_samples_apart_iff (start hostNetNSId : Nat) (sidecar : Option (String × String)) (rs : List Refresh)
    (now : Nat) (data : Data) :
    (collect fq api l nodeName extra (run api (initDefaultEntity api start hostNetNSId sidecar) rs) now
        (some data)).Pairwise Apart ↔
      ∀ name counts, data.lookup name = some counts → l.newMetricsName fq name ∈ l.descs fq →
        ∀ m ∈ counts, ∀ n ∈ counts, m ≠ n → ∀ d e,
          entityAt (hostEntity hostNetNSId sidecar) rs now m.toNat = some d →
          entityAt (hostEntity hostNetNSId sidecar) rs now n.toNat = some e → ¬SameIdentity extra d e := by
  unfold collect
  simp only [← getEntityByNetns_run api start]
  generalize run api (initDefaultEntity api start hostNetNSId sidecar) rs = st
  rw [List.pairwise_flatMap, and_iff_left (metrics_apart fq api l nodeName extra st now data)]
  simp only [metric_apart_iff]
  constructor
  · intro h name counts hlookup
    exact h ⟨name, counts⟩ (AList.mem_lookup_iff.mp hlookup)
  · intro h metric hmetric
    exact h metric.1 metric.2 (AList.mem_lookup_iff.mpr hmetric)

end Collect

def underscored (metricsNamespace subsystem name : String) : String :=
  if name = "" then ""
  else
    (if metricsNamespace = "" then "" else metricsNamespace ++ "_") ++
      ((if subsystem = "" then "" else subsystem ++ "_") ++ name)

theorem underscored_eq_empty_iff (metricsNamespace subsystem name : String) :
    underscored metricsNamespace subsystem name = "" ↔ name = "" := by
  unfold underscored
  split
  · rename_i h
    exact iff_of_true rfl h
  · rename_i h
    rw [String.append_eq_empty_iff, String.append_eq_empty_iff]
    exact iff_of_false (fun hempty => h hempty.2.2) h

def underscoredNames : FQNames where
  buildFQName := underscored
  injective := by
    intro metricsNamespace subsystem m n h
    by_cases hm : m = ""
    · rw [hm, eq_comm, ← underscored_eq_empty_iff metricsNamespace subsystem, ← h, underscored_eq_empty_iff, hm]
    · have hn : n ≠ "" := fun hn =>
        hm ((underscored_eq_empty_iff _ _ _).mp (h.trans ((underscored_eq_empty_iff _ _ _).mpr hn)))
      rw [underscored, underscored, if_neg hm, if_neg hn, String.append_right_inj, String.append_right_inj] at h
      exact h

def slowReceives : BatchMetrics := ⟨"elite", "kernellatency", ["rxslow"]⟩

def oneUnderEach (m n : UInt32) : Data := (∅ : Data).insert "rxslow" (((∅ : Counts).insert m 1).insert n 1)

def webPod (inum now : Nat) : Refresh :=
  .cri (some [⟨"default", "web-0", [], some ⟨some inum, "10.0.0.7"⟩, false, now⟩])

/-- Packets without a device and packets of the host's namespace are counted under 0 and
    under the host's number: two samples of the host. A pod that is deleted and created anew
    leaves two numbers behind for 30 s: two samples of the pod. -/
theorem two_numbers_for_one_identity :
    collect underscoredNames .table slowReceives "node" (fun _ => [])
        (run .table (initDefaultEntity .table 0 4026531840 none) []) 1 (some (oneUnderEach 0 4026531840)) =
      [⟨"elite_kernellatency_rxslow", ["node", "", ""], 1⟩, ⟨"elite_kernellatency_rxslow", ["node", "", ""], 1⟩] ∧
    collect underscoredNames .table slowReceives "node" (fun _ => [])
        (run .table (initDefaultEntity .table 0 4026531840 none)
          [webPod 4026532001 1000000000, webPod 4026532002 11000000000])
        12000000000 (some (oneUnderEach 4026532001 4026532002)) =
      [⟨"elite_kernellatency_rxslow", ["node", "default", "web-0"], 1⟩,
        ⟨"elite_kernellatency_rxslow", ["node", "default", "web-0"], 1⟩] := by
  decide

end EliteTelemetry.Probes.Legacy
