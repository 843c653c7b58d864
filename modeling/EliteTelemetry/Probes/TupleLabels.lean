/-
  EliteTelemetry.Probes.TupleLabels — what a metric and what an event say of the same tuple
  (`BuildTupleMetricsLabels` and `BuildTupleEventLabels` of `probe/legacy.go`).

  Both ask the IP cache for each address. The metric's function returns what it finds from
  inside its cases. The event's function assigns it to `values`, from which a deferred
  function makes the labels, and after the cases assigns the values of an unknown address,
  whatever the cases did. So the two agree on a tuple exactly if the cache has neither
  address as a node or a pod (`eventLabels_agree_iff`).

  `Probes.Labels` has both for the entries an agent can hold, nodes and pods; here an entry
  may be of any type, and the two descriptions are shown to be the same for an agent's.
-/

import EliteTelemetry.Probes.Ports

namespace EliteTelemetry.Probes.TupleLabels

open EliteTelemetry.Ipcache (IPCache)
open EliteTelemetry.Lib.Decimal
open EliteTelemetry.Probes.Labels (ProbeTuple Label getProtoStr)
open EliteTelemetry.Probes.Ports (tupleMetricsLabels)

/-! ## Entries of any type -/

inductive IPType where
  | node
  | pod
  | other (text : String)
  deriving DecidableEq, Repr

structure IPInfo where
  type : IPType
  ip : String
  nodeName : String
  podName : String
  podNamespace : String
  deriving DecidableEq, Repr

abbrev GetIPInfo := String → Option IPInfo

def Known (getIPInfo : GetIPInfo) (ip : String) : Prop :=
  ∃ info, getIPInfo ip = some info ∧ (info.type = .node ∨ info.type = .pod)

/-! ## The two renderers -/

def unknownValues : List String := ["unknown", "", "", ""]

def metricsIPInfo (getIPInfo : GetIPInfo) (ip : String) : List String :=
  match getIPInfo ip with
  | none => unknownValues
  | some info =>
    match info.type with
    | .node => ["node", info.nodeName, "", ""]
    | .pod => ["pod", "", info.podNamespace, info.podName]
    | .other _ => unknownValues

def buildTupleMetricsLabels (getIPInfo : GetIPInfo) (tuple : ProbeTuple) : List String :=
  [getProtoStr tuple.protocol] ++ [tuple.src] ++ metricsIPInfo getIPInfo tuple.src ++ [tuple.dst] ++
    metricsIPInfo getIPInfo tuple.dst ++ [decimal tuple.sport.toNat] ++ [decimal tuple.dport.toNat]

structure Values where
  type : String := ""
  node : String := ""
  namespace_ : String := ""
  pod : String := ""
  deriving DecidableEq, Repr

def assignValues (getIPInfo : GetIPInfo) (ip : String) : StateM Values Unit := do
  match getIPInfo ip with
  | none =>
    set (⟨"unknown", "", "", ""⟩ : Values)
    return
  | some info =>
    match info.type with
    | .node => set (⟨"node", info.nodeName, "", ""⟩ : Values)
    | .pod => set (⟨"pod", "", info.podNamespace, info.podName⟩ : Values)
    -- only logged
    | .other _ => pure ()
    set (⟨"unknown", "", "", ""⟩ : Values)
    return

def Values.labels (pre : String) (values : Values) : List Label :=
  [⟨pre ++ "_type", values.type⟩, ⟨pre ++ "_node", values.node⟩, ⟨pre ++ "_namespace", values.namespace_⟩,
    ⟨pre ++ "_pod", values.pod⟩]

/-- `ipInfo` of `BuildTupleEventLabels`: the deferred function sees the last assignment. -/
def eventIPInfo (getIPInfo : GetIPInfo) (pre ip : String) : List Label :=
  ((assignValues getIPInfo ip).run {}).2.labels pre

def buildTupleEventLabels (getIPInfo : GetIPInfo) (tuple : ProbeTuple) : List Label :=
  [⟨"protocol", getProtoStr tuple.protocol⟩] ++ [⟨"src", tuple.src⟩] ++ eventIPInfo getIPInfo "src" tuple.src ++
    [⟨"dst", tuple.dst⟩] ++ eventIPInfo getIPInfo "dst" tuple.dst ++ [⟨"sport", decimal tuple.sport.toNat⟩] ++
    [⟨"dport", decimal tuple.dport.toNat⟩]

/-! ## Where they agree -/

theorem metricsIPInfo_length (getIPInfo : GetIPInfo) (ip : String) : (metricsIPInfo getIPInfo ip).length = 4 := by
  unfold metricsIPInfo
  split
  · rfl
  · split <;> rfl

theorem metricsIPInfo_eq_unknown_iff (getIPInfo : GetIPInfo) (ip : String) :
    metricsIPInfo getIPInfo ip = unknownValues ↔ ¬Known getIPInfo ip := by
  unfold metricsIPInfo Known
  cases hinfo : getIPInfo ip with
  | none => simp
  | some info =>
    cases htype : info.type with
    | node => simp [unknownValues, htype]
    | pod => simp [unknownValues, htype]
    | other text => simp [htype]

/-- Whatever is assigned inside the cases, the values of an unknown address are assigned last. -/
theorem assignValues_run (getIPInfo : GetIPInfo) (ip : String) (values : Values) :
    ((assignValues getIPInfo ip).run values).2 = ⟨"unknown", "", "", ""⟩ := by
  unfold assignValues
  cases getIPInfo ip with
  | none => rfl
  | some info => cases htype : info.type <;> simp only [htype] <;> rfl

theorem eventIPInfo_values (getIPInfo : GetIPInfo) (pre ip : String) :
    (eventIPInfo getIPInfo pre ip).map Label.value = unknownValues := by
  unfold eventIPInfo
  rw [assignValues_run]
  rfl

/-- An event's labels have the names of a metric's, in the same order. -/
theorem eventLabels_names (getIPInfo : GetIPInfo) (tuple : ProbeTuple) :
    (buildTupleEventLabels getIPInfo tuple).map Label.name = tupleMetricsLabels := by
  unfold buildTupleEventLabels eventIPInfo
  rw [assignValues_run, assignValues_run]
  rfl

theorem eventLabels_values (getIPInfo : GetIPInfo) (tuple : ProbeTuple) :
    (buildTupleEventLabels getIPInfo tuple).map Label.value =
      [getProtoStr tuple.protocol] ++ [tuple.src] ++ unknownValues ++ [tuple.dst] ++ unknownValues ++
        [decimal tuple.sport.toNat] ++ [decimal tuple.dport.toNat] := by
  unfold buildTupleEventLabels
  simp only [List.map_append, List.map_cons, List.map_nil, eventIPInfo_values]

theorem values_agree_iff (getIPInfo : GetIPInfo) (tuple : ProbeTuple) :
    (buildTupleEventLabels getIPInfo tuple).map Label.value = buildTupleMetricsLabels getIPInfo tuple ↔
      ¬Known getIPInfo tuple.src ∧ ¬Known getIPInfo tuple.dst := by
  rw [eventLabels_values, ← metricsIPInfo_eq_unknown_iff, ← metricsIPInfo_eq_unknown_iff]
  unfold buildTupleMetricsLabels
  constructor
  · intro h
    have h := List.append_cancel_right (List.append_cancel_right h)
    obtain ⟨h, hdst⟩ := List.append_inj' h (metricsIPInfo_length getIPInfo tuple.dst).symm
    have h := List.append_cancel_right h
    exact ⟨(List.append_cancel_left h).symm, hdst.symm⟩
  · intro h
    rw [h.1, h.2]

/-- An event has a metric's labels, and says of a tuple what the metric says of it exactly
    if the cache has neither address as a node or a pod. -/
theorem eventLabels_agree_iff (getIPInfo : GetIPInfo) (tuple : ProbeTuple) :
    (buildTupleEventLabels getIPInfo tuple).map Label.name = tupleMetricsLabels ∧
      ((buildTupleEventLabels getIPInfo tuple).map Label.value = buildTupleMetricsLabels getIPInfo tuple ↔
        ¬Known getIPInfo tuple.src ∧ ¬Known getIPInfo tuple.dst) :=
  ⟨eventLabels_names getIPInfo tuple, values_agree_iff getIPInfo tuple⟩

/-- A pod is a pod in a metric, and unknown in an event. -/
theorem eventLabels_lose_pod :
    let getIPInfo : GetIPInfo := fun ip => if ip = "10.0.0.7" then some ⟨.pod, ip, "", "web-0", "shop"⟩ else none
    let tuple : ProbeTuple := ⟨6, "10.0.0.7", "192.0.2.1", 43210, 443⟩
    buildTupleMetricsLabels getIPInfo tuple =
        ["TCP", "10.0.0.7", "pod", "", "shop", "web-0", "192.0.2.1", "unknown", "", "", "", "43210", "443"] ∧
      (buildTupleEventLabels getIPInfo tuple).map Label.value =
        ["TCP", "10.0.0.7", "unknown", "", "", "", "192.0.2.1", "unknown", "", "", "", "43210", "443"] ∧
      (buildTupleEventLabels getIPInfo tuple).map Label.value ≠ buildTupleMetricsLabels getIPInfo tuple := by
  decide

/-! ## An agent's cache -/

def ofAgent : Ipcache.IPInfo → IPInfo
  | .node ip nodeName => ⟨.node, ip, nodeName, "", ""⟩
  | .pod ip podName podNamespace => ⟨.pod, ip, "", podName, podNamespace⟩

def agentIPInfo (cache : IPCache) : GetIPInfo := fun ip => (cache.getIPInfo ip).map ofAgent

theorem known_agentIPInfo (cache : IPCache) (ip : String) :
    Known (agentIPInfo cache) ip ↔ cache.getIPInfo ip ≠ none := by
  unfold Known agentIPInfo
  cases cache.getIPInfo ip with
  | none => simp
  | some info => cases info <;> simp [ofAgent]

theorem metricsLabels_agent (cache : IPCache) (tuple : ProbeTuple) :
    buildTupleMetricsLabels (agentIPInfo cache) tuple = Labels.buildTupleMetricsLabels cache tuple := by
  have hinfo : ∀ ip, metricsIPInfo (agentIPInfo cache) ip = Labels.ipInfo cache ip := by
    intro ip
    unfold metricsIPInfo agentIPInfo Labels.ipInfo
    cases cache.getIPInfo ip with
    | none => rfl
    | some info => cases info <;> rfl
  simp [buildTupleMetricsLabels, Labels.buildTupleMetricsLabels, hinfo]

theorem eventLabels_agent (cache : IPCache) (tuple : ProbeTuple) :
    buildTupleEventLabels (agentIPInfo cache) tuple = Labels.buildTupleEventLabels tuple := by
  unfold buildTupleEventLabels eventIPInfo
  rw [assignValues_run, assignValues_run]
  simp [Labels.buildTupleEventLabels, Labels.eventIPInfo, Values.labels]

/-- With an agent's cache the two agree on a tuple only if the agent has neither address. -/
theorem agent_labels_agree_iff (cache : IPCache) (tuple : ProbeTuple) :
    (Labels.buildTupleEventLabels tuple).map Label.value = Labels.buildTupleMetricsLabels cache tuple ↔
      cache.getIPInfo tuple.src = none ∧ cache.getIPInfo tuple.dst = none := by
  rw [← metricsLabels_agent, ← eventLabels_agent cache, values_agree_iff, known_agentIPInfo, known_agentIPInfo,
    not_not, not_not]

end EliteTelemetry.Probes.TupleLabels
