/-
  EliteTelemetry.Export.Otel — the OTLP bridge (`pkg/export/otel.go`).

  Every interval the bridge gathers the Prometheus families, turns the gauges and counters
  whose name starts with `elite_` into OTLP metrics, and exports them. It stops as soon as it
  has a batch, it sends every value as an int64, and it leaves the temporality of a counter
  undefined. Values are rationals here; what becomes of one that no int64 holds is left to the
  implementation, as the language does. The attribute sets and the OTLP exporter are not part
  of the repository: they are parameters, with the laws that are used of them.

  The export carries the gathered points and nothing else exactly where each of them is a
  gauge that is an integer of 64 bits and no family with a metric in it comes after the batch
  is full (`export_carries_iff`). A gauge between 0 and 1 arrives as 0 (`half_arrives_as_zero`).
-/

import EliteTelemetry.Lib.GoNumbers
import Mathlib.Data.Finset.Image
import Mathlib.Data.List.Flatten

namespace EliteTelemetry.Export.Otel

open EliteTelemetry.Lib.GoNumbers

/-! ## What is gathered -/

inductive MetricType where
  | counter
  | gauge
  | summary
  | untyped
  | histogram
  | gaugeHistogram
  deriving DecidableEq, Repr

/-- `dto.Metric`: the labels, with what `GetGauge().GetValue()` and `GetCounter().GetValue()`
    return. `Gather` refuses a metric that has a label twice. -/
structure Metric where
  labels : List (String × String)
  gauge : ℚ
  counter : ℚ
  nodup : (labels.map Prod.fst).Nodup

structure Family where
  name : String
  help : String
  type : MetricType
  metrics : List Metric

/-! ## What is exported -/

/-- `attribute.NewSet`, as far as it is used: with no key given twice, the set has the pairs
    that are given. -/
structure AttributeApi where
  Set : Type
  newSet : List (String × String) → Set
  pairs : Set → Finset (String × String)
  pairs_newSet : ∀ kvs, (kvs.map Prod.fst).Nodup → pairs (newSet kvs) = kvs.toFinset

structure DataPoint (S : Type) where
  attributes : S
  value : Int64

/-- `metricdata.Temporality`; the zero value is the undefined one. -/
inductive Temporality where
  | undefined
  | cumulative
  | delta
  deriving DecidableEq, Repr

inductive Data (S : Type) where
  | sum (points : List (DataPoint S)) (temporality : Temporality) (isMonotonic : Bool)
  | gauge (points : List (DataPoint S))

structure Metrics (S : Type) where
  name : String
  description : String
  unit : String
  data : Data S

/-- `otlpmetrichttp.Exporter` with an endpoint that takes every request: which of the metrics
    given to `Export` are in the request. It encodes every gauge, and of a sum with no
    temporality it reports an error and leaves it out. -/
structure Exporter (S : Type) where
  carries : Metrics S → Bool
  carries_gauge : ∀ name description unit points, carries ⟨name, description, unit, .gauge points⟩ = true
  carries_undefined : ∀ name description unit points isMonotonic,
    carries ⟨name, description, unit, .sum points .undefined isMonotonic⟩ = false

section Bridge

variable (api : AttributeApi) (conv : Conv)

def promLabelsToAttrs (labels : List (String × String)) : api.Set := api.newSet labels

def int64 (val : ℚ) : Int64 := Int64.ofInt (conv.int val)

def dataPoints (mf : Family) : List (DataPoint api.Set) :=
  mf.metrics.map fun m =>
    let val := if mf.type = .gauge then m.gauge else m.counter
    ⟨promLabelsToAttrs api m.labels, int64 conv val⟩

/-- `promFamilyToOTel`; it sets no temporality. -/
def promFamilyToOTel (mf : Family) : Option (Metrics api.Set) :=
  match mf.type with
  | .counter => some ⟨mf.name, mf.help, "1", .sum (dataPoints api conv mf) .undefined true⟩
  | .gauge => some ⟨mf.name, mf.help, "1", .gauge (dataPoints api conv mf)⟩
  | .summary | .untyped | .histogram | .gaugeHistogram => none

def isElite (mf : Family) : Bool := "elite_".toList.isPrefixOf mf.name.toList

def collect (batchSize : ℤ) : List Family → List (Metrics api.Set) → List (Metrics api.Set)
  | [], metrics => metrics
  | mf :: mfs, metrics =>
    if !isElite mf then collect batchSize mfs metrics
    else
      let metrics := match promFamilyToOTel api conv mf with
        | some m => metrics ++ [m]
        | none => metrics
      if batchSize ≤ metrics.length then metrics else collect batchSize mfs metrics

/-- `pushOnce`: the metrics that are given to `Export`, if it is called. -/
def pushOnce (batchSize : ℤ) (mfs : List Family) : Option (List (Metrics api.Set)) :=
  let metrics := collect api conv batchSize mfs []
  if metrics.length = 0 then none else some metrics

/-! ## Points -/

structure Point where
  name : String
  monotonic : Bool
  labels : Finset (String × String)
  value : ℚ
  deriving DecidableEq

def isExported (mf : Family) : Bool := isElite mf && (mf.type = .gauge || mf.type = .counter)

def Metric.value (m : Metric) (type : MetricType) : ℚ := if type = .gauge then m.gauge else m.counter

def Family.points (mf : Family) : List Point :=
  mf.metrics.map fun m => ⟨mf.name, mf.type = .counter, m.labels.toFinset, m.value mf.type⟩

def gathered (mfs : List Family) : List Point := (mfs.filter isExported).flatMap Family.points

def Metrics.points {api : AttributeApi} (m : Metrics api.Set) : List Point :=
  match m.data with
  | .sum points _ isMonotonic => points.map fun p => ⟨m.name, isMonotonic, api.pairs p.attributes, p.value.toInt⟩
  | .gauge points => points.map fun p => ⟨m.name, false, api.pairs p.attributes, p.value.toInt⟩

def arrived {api : AttributeApi} (e : Exporter api.Set) (exported : Option (List (Metrics api.Set))) : List Point :=
  ((exported.getD []).filter e.carries).flatMap Metrics.points

def Integral (x : ℚ) : Prop := ∃ n : ℤ, x = n ∧ -(2 ^ 63) ≤ n ∧ n < 2 ^ 63

/-! ### Values -/

theorem trunc_intCast (n : ℤ) : trunc n = n := by
  unfold trunc
  split <;> simp

theorem int64_of_integral {x : ℚ} (h : Integral x) : ((int64 conv x).toInt : ℚ) = x := by
  obtain ⟨n, rfl, hlo, hhi⟩ := h
  have hint : conv.int n = n := by
    rw [conv.int_fits n (by exact_mod_cast hlo) (by exact_mod_cast hhi), trunc_intCast]
  rw [int64, hint, Int64.toInt_ofInt_of_le hlo hhi]

theorem integral_of_int64 (n : Int64) : Integral (n.toInt : ℚ) := ⟨n.toInt, rfl, n.le_toInt, n.toInt_lt⟩

/-! ## The loop -/

def taken (batchSize : ℤ) (mfs : List Family) : List Family := (mfs.filter isExported).take batchSize.toNat

theorem promFamilyToOTel_isSome {mf : Family} (h : isElite mf = true) :
    (promFamilyToOTel api conv mf).isSome = isExported mf := by
  unfold promFamilyToOTel isExported
  cases ht : mf.type <;> simp [h]

/-- The loop adds the exported families in their order until it has a batch. -/
theorem collect_eq (batchSize : ℤ) (mfs : List Family) (metrics : List (Metrics api.Set))
    (h : metrics.length < batchSize) :
    collect api conv batchSize mfs metrics = metrics ++
      ((mfs.filter isExported).take (batchSize - metrics.length).toNat).filterMap (promFamilyToOTel api conv) := by
  induction mfs generalizing metrics with
  | nil => simp [collect]
  | cons mf mfs ih =>
    cases he : isElite mf with
    | false =>
      have hx : isExported mf = false := by simp [isExported, he]
      simp only [collect, he, Bool.not_false, if_true, List.filter_cons_of_neg (by simp [hx] : ¬ isExported mf = true)]
      exact ih metrics h
    | true =>
      have hsome := promFamilyToOTel_isSome api conv he
      simp only [collect, he, Bool.not_true, Bool.false_eq_true, if_false]
      cases hm : promFamilyToOTel api conv mf with
      | none =>
        have hx : ¬ isExported mf = true := by rw [← hsome, hm]; simp
        simp only [List.filter_cons_of_neg hx, if_neg (not_le.mpr h)]
        exact ih metrics h
      | some m =>
        have hx : isExported mf = true := by rw [← hsome, hm]; rfl
        obtain ⟨n, hn⟩ : ∃ n, (batchSize - metrics.length).toNat = n + 1 :=
          ⟨(batchSize - metrics.length).toNat - 1, by omega⟩
        rw [List.filter_cons_of_pos hx, hn, List.take_succ_cons, List.filterMap_cons_some hm]
        simp only [List.length_append, List.length_singleton]
        split
        · have hz : n = 0 := by omega
          simp [hz]
        · rw [ih _ (by simp; omega)]
          have hn' : (batchSize - ((metrics ++ [m]).length : ℤ)).toNat = n := by simp; omega
          rw [hn']
          simp

def Point.sent (p : Point) : Point := { p with value := (int64 conv p.value).toInt }

def Family.gauges (mf : Family) : List Point := if mf.type = .gauge then mf.points else []

variable {api} (e : Exporter api.Set)

theorem carried_points {mf : Family} (h : isExported mf = true) :
    ∃ m, promFamilyToOTel api conv mf = some m ∧
      ([m].filter e.carries).flatMap Metrics.points = mf.gauges.map (Point.sent conv) := by
  have hpairs (m : Metric) : api.pairs (promLabelsToAttrs api m.labels) = m.labels.toFinset :=
    api.pairs_newSet m.labels m.nodup
  unfold promFamilyToOTel
  cases ht : mf.type with
  | counter => exact ⟨_, rfl, by simp [e.carries_undefined, Family.gauges, ht]⟩
  | gauge => exact ⟨_, rfl, by simp [e.carries_gauge, Family.gauges, Metrics.points, dataPoints, Family.points,
      Point.sent, Metric.value, hpairs, ht]⟩
  | summary => simp [isExported, ht] at h
  | untyped => simp [isExported, ht] at h
  | histogram => simp [isExported, ht] at h
  | gaugeHistogram => simp [isExported, ht] at h

theorem filterMap_points {mfs : List Family} (h : ∀ mf ∈ mfs, isExported mf = true) :
    ((mfs.filterMap (promFamilyToOTel api conv)).filter e.carries).flatMap Metrics.points =
      (mfs.flatMap Family.gauges).map (Point.sent conv) := by
  induction mfs with
  | nil => rfl
  | cons mf mfs ih =>
    obtain ⟨m, hm, hpoints⟩ := carried_points conv e (h mf (by simp))
    rw [List.filterMap_cons_some hm, List.flatMap_cons, List.map_append, ← hpoints,
      ← ih fun mf hmf => h mf (by simp [hmf]), ← List.flatMap_append, ← List.filter_append, List.singleton_append]

/-- What arrives is what the gauges of the batch have, each value as an int64. -/
theorem arrived_eq {batchSize : ℤ} (h : 1 ≤ batchSize) (mfs : List Family) :
    arrived e (pushOnce api conv batchSize mfs) =
      ((taken batchSize mfs).flatMap Family.gauges).map (Point.sent conv) := by
  have hcollect := collect_eq api conv batchSize mfs [] (by simp; omega)
  have harrived : arrived e (pushOnce api conv batchSize mfs) =
      ((collect api conv batchSize mfs []).filter e.carries).flatMap Metrics.points := by
    unfold arrived pushOnce
    simp only
    split
    · rename_i hz
      rw [List.length_eq_zero_iff.mp hz]
      rfl
    · rfl
  rw [harrived, hcollect, List.nil_append, filterMap_points conv e]
  · simp [taken]
  · intro mf hmf
    exact (List.mem_filter.mp (List.mem_of_mem_take hmf)).2

/-! ## One interval -/

theorem sent_of_integral {p : Point} (h : Integral p.value) : p.sent conv = p := by
  unfold Point.sent
  rw [int64_of_integral conv h]

/-- Every gauge that is to arrive has a value of 64 bits, there is no counter, and no family
    after the batch has a metric. -/
structure Fits (batchSize : ℤ) (mfs : List Family) : Prop where
  integral : ∀ mf ∈ mfs.filter isExported, ∀ m ∈ mf.metrics, Integral (m.value mf.type)
  counters : ∀ mf ∈ mfs.filter isExported, mf.type = .counter → mf.metrics = []
  batch : ∀ mf ∈ (mfs.filter isExported).drop batchSize.toNat, mf.metrics = []

theorem gathered_eq (batchSize : ℤ) (mfs : List Family) :
    gathered mfs = (taken batchSize mfs).flatMap Family.points ++
      ((mfs.filter isExported).drop batchSize.toNat).flatMap Family.points := by
  rw [← List.flatMap_append, taken, List.take_append_drop]
  rfl

theorem gauges_sublist (mf : Family) : mf.gauges.Sublist mf.points := by
  unfold Family.gauges
  split
  · exact .refl _
  · exact List.nil_sublist _

theorem gauge_of_arrived {batchSize : ℤ} (h : 1 ≤ batchSize) {mfs : List Family} {p : Point}
    (hp : p ∈ arrived e (pushOnce api conv batchSize mfs)) : p.monotonic = false ∧ Integral p.value := by
  rw [arrived_eq conv e h] at hp
  obtain ⟨q, hq, rfl⟩ := List.mem_map.mp hp
  refine ⟨?_, integral_of_int64 _⟩
  obtain ⟨mf, -, hq⟩ := List.mem_flatMap.mp hq
  unfold Family.gauges at hq
  split at hq
  · rename_i ht
    obtain ⟨m, -, rfl⟩ := List.mem_map.mp hq
    simp [Point.sent, ht]
  · cases hq

theorem fits_of_perm {batchSize : ℤ} (h : 1 ≤ batchSize) {mfs : List Family}
    (hperm : (arrived e (pushOnce api conv batchSize mfs)).Perm (gathered mfs)) : Fits batchSize mfs := by
  have hall : ∀ mf ∈ mfs.filter isExported, ∀ m ∈ mf.metrics, mf.type ≠ .counter ∧ Integral (m.value mf.type) := by
    intro mf hmf m hm
    have hgathered : ⟨mf.name, mf.type = .counter, m.labels.toFinset, m.value mf.type⟩ ∈ gathered mfs :=
      List.mem_flatMap.mpr ⟨mf, hmf, List.mem_map_of_mem hm⟩
    simpa using gauge_of_arrived conv e h (hperm.mem_iff.mpr hgathered)
  refine ⟨fun mf hmf m hm => (hall mf hmf m hm).2, fun mf hmf ht => ?_, fun mf hmf => ?_⟩
  · exact List.eq_nil_iff_forall_not_mem.mpr fun m hm => (hall mf hmf m hm).1 ht
  · -- No more points arrive than the batch has, so none is left for the families after it.
    have hlen := hperm.length_eq
    have hbatch : ((taken batchSize mfs).flatMap Family.gauges).length ≤
        ((taken batchSize mfs).flatMap Family.points).length :=
      (List.Sublist.flatMap_right _ fun mf _ => gauges_sublist mf).length_le
    rw [arrived_eq conv e h, gathered_eq batchSize, List.length_append, List.length_map] at hlen
    have hrest : (((mfs.filter isExported).drop batchSize.toNat).flatMap Family.points).length = 0 := by omega
    rw [List.length_eq_zero_iff, List.flatMap_eq_nil_iff] at hrest
    simpa [Family.points] using hrest mf hmf

theorem Fits.sent_gauges {batchSize : ℤ} {mfs : List Family} (hfits : Fits batchSize mfs) {mf : Family}
    (hmf : mf ∈ mfs.filter isExported) : mf.gauges.map (Point.sent conv) = mf.points := by
  by_cases ht : mf.type = .gauge
  · rw [Family.gauges, if_pos ht]
    refine (List.map_congr_left fun p hp => ?_).trans (List.map_id _)
    obtain ⟨m, hm, rfl⟩ := List.mem_map.mp hp
    exact sent_of_integral conv (hfits.integral mf hmf m hm)
  · have hexported := (List.mem_filter.mp hmf).2
    have hcounter : mf.type = .counter := by
      rw [isExported, Bool.and_eq_true] at hexported
      simpa [ht] using hexported.2
    simp [Family.gauges, ht, Family.points, hfits.counters mf hmf hcounter]

/-- The export of an interval carries, in some order, exactly the points of the gauges and
    counters of the `elite_` families, where they fit. -/
theorem export_carries_iff (batchSize : ℤ) (h : 1 ≤ batchSize) (mfs : List Family) :
    (arrived e (pushOnce api conv batchSize mfs)).Perm (gathered mfs) ↔ Fits batchSize mfs := by
  refine ⟨fits_of_perm conv e h, fun hfits => ?_⟩
  have hnone : ((mfs.filter isExported).drop batchSize.toNat).flatMap Family.points = [] :=
    List.flatMap_eq_nil_iff.mpr fun mf hmf => by simp [Family.points, hfits.batch mf hmf]
  rw [arrived_eq conv e h, gathered_eq batchSize, hnone, List.append_nil, List.map_flatMap]
  exact .of_eq (List.flatMap_congr fun mf hmf => hfits.sent_gauges conv (List.mem_of_mem_take hmf))

end Bridge

/-- A library that keeps the pairs, with the exporter of the version the bridge is built with. -/
def pairSets : AttributeApi where
  Set := Finset (String × String)
  newSet kvs := kvs.toFinset
  pairs s := s
  pairs_newSet _ _ := rfl

def otlpHttp (S : Type) : Exporter S where
  carries m := match m.data with
    | .sum _ temporality _ => temporality ≠ .undefined
    | .gauge _ => true
  carries_gauge _ _ _ _ := rfl
  carries_undefined _ _ _ _ _ := rfl

def countFamilies : List Family :=
  [⟨"go_goroutines", "", .gauge, [⟨[], 12, 0, by simp⟩]⟩,
    ⟨"elite_queue_depth", "", .gauge, [⟨[("node", "a")], 7, 0, by simp⟩]⟩,
    ⟨"elite_latency", "", .histogram, []⟩]

theorem countFamilies_carried :
    Fits 1 countFamilies ∧
      (arrived (otlpHttp pairSets.Set) (pushOnce pairSets saturating 1 countFamilies)).Perm
        (gathered countFamilies) := by
  have hfits : Fits 1 countFamilies := by
    have hfilter : countFamilies.filter isExported =
        [⟨"elite_queue_depth", "", .gauge, [⟨[("node", "a")], 7, 0, by simp⟩]⟩] := rfl
    refine ⟨fun mf hmf m hm => ?_, fun mf hmf ht => ?_, fun mf hmf => ?_⟩
    · rw [hfilter] at hmf
      obtain rfl := List.mem_singleton.mp hmf
      obtain rfl := List.mem_singleton.mp hm
      exact ⟨7, by simp [Metric.value], by norm_num, by norm_num⟩
    · rw [hfilter] at hmf
      obtain rfl := List.mem_singleton.mp hmf
      cases ht
    · simp [hfilter] at hmf
  exact ⟨hfits, (export_carries_iff saturating (otlpHttp pairSets.Set) 1 le_rfl countFamilies).mpr hfits⟩

def rhoFamilies : List Family :=
  [⟨"elite_rho", "", .gauge, [⟨[], 1 / 2, 0, by simp⟩]⟩, ⟨"elite_drops", "", .counter, [⟨[], 0, 3, by simp⟩]⟩,
    ⟨"elite_latency", "", .gauge, [⟨[], 5, 0, by simp⟩]⟩]

/-- The utilisation arrives as 0, the counter is left out by the exporter, and with a batch of
    two the latency is not sent. -/
theorem half_arrives_as_zero :
    (arrived (otlpHttp pairSets.Set) (pushOnce pairSets saturating 2 rhoFamilies)).map (fun p => (p.name, p.value)) =
        [("elite_rho", 0)] ∧
      (gathered rhoFamilies).map (fun p => (p.name, p.value)) =
        [("elite_rho", 1 / 2), ("elite_drops", 3), ("elite_latency", 5)] := by
  have hhalf : saturating.int (1 / 2) = 0 := by
    rw [saturating.int_fits _ (by norm_num) (by norm_num), trunc_of_nonneg (by norm_num)]
    norm_num
  refine ⟨?_, rfl⟩
  rw [arrived_eq saturating (otlpHttp pairSets.Set) (by norm_num)]
  show [("elite_rho", ((Int64.ofInt (saturating.int (1 / 2))).toInt : ℚ))] = _
  rw [hhalf]
  rfl

end EliteTelemetry.Export.Otel
