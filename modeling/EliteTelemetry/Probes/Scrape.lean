/-
  EliteTelemetry.Probes.Scrape — the samples of the flow probe and of the packet-loss probe
  in one scrape.

  Both emit two samples for each key they have, with labels made from the key. The Prometheus
  registry refuses a scrape with two samples of one name and the same labels. Keys that
  differ in more than the protocol have different labels; keys that differ in the protocol
  have the same labels where neither protocol has a name (`samples_apart_iff`).
-/

import EliteTelemetry.Probes.Flow
import EliteTelemetry.Probes.PacketLoss

namespace EliteTelemetry.Probes.Scrape

open EliteTelemetry.Ipcache
open EliteTelemetry.Probes.Inspector
open EliteTelemetry.Probes.Labels

def flowLabels (ips : IPCache) (key : FlowTuple4) : List String := buildTupleMetricsLabels ips (Flow.toProbeTuple key)

def lossLabels (ips : IPCache) (nodeName : String) (key : PacketLoss.CacheKey) : List String :=
  buildTupleMetricsLabels ips key.tuple ++ [nodeName]

/-! ## Flows -/

theorem flowLabels_eq_iff (ips : IPCache) (j k : FlowTuple4) :
    flowLabels ips j = flowLabels ips k ↔
      (j.proto = k.proto ∨ Unnamed j.proto ∧ Unnamed k.proto) ∧ j.src = k.src ∧ j.dst = k.dst ∧ j.sport = k.sport ∧
        j.dport = k.dport := by
  unfold flowLabels
  rw [buildTupleMetricsLabels_eq_iff]
  simp only [Flow.toProbeTuple, getProtoStr_eq_iff, getV4AddrStr_inj]

theorem flow_apart_iff {n : Nat} (t : Flow.FlowMap n) (labels : FlowTuple4 → List String) :
    (Flow.collectOnce labels t).Pairwise Apart ↔ ∀ j ∈ t, ∀ k ∈ t, labels j = labels k → j = k := by
  unfold Flow.collectOnce Flow.emitFlow
  rw [apart_iff t.nodupKeys.nodup (by decide) (fun e => labels e.1)]
  constructor
  · intro h j hj k hk hjk
    obtain ⟨v, hv⟩ := List.mem_keys.mp (AList.mem_keys.mp hj)
    obtain ⟨w, hw⟩ := List.mem_keys.mp (AList.mem_keys.mp hk)
    exact congrArg Sigma.fst (h ⟨j, v⟩ hv ⟨k, w⟩ hw hjk)
  · intro h a ha b hb hab
    have hkeys := h a.1 (AList.mem_keys.mpr (List.mem_keys_of_mem ha)) b.1 (AList.mem_keys.mpr (List.mem_keys_of_mem hb)) hab
    exact t.nodupKeys.eq_of_fst_eq ha hb hkeys

/-! ## Losses -/

theorem lossLabels_eq_iff (ips : IPCache) (nodeName : String) (j k : PacketLoss.CacheKey) :
    lossLabels ips nodeName j = lossLabels ips nodeName k ↔
      (j.protocol = k.protocol ∨ Unnamed j.protocol ∧ Unnamed k.protocol) ∧ j.src = k.src ∧ j.dst = k.dst := by
  unfold lossLabels
  rw [List.append_cancel_right_eq, buildTupleMetricsLabels_eq_iff]
  simp only [PacketLoss.CacheKey.tuple, getProtoStr_eq_iff, and_true]

theorem loss_apart_iff (cache : PacketLoss.Cache) (labels : PacketLoss.CacheKey → List String)
    (now : PacketLoss.CacheKey → Int) :
    (PacketLoss.collectOnce labels now cache).1.Pairwise Apart ↔ ∀ j ∈ cache, ∀ k ∈ cache, labels j = labels k → j = k := by
  obtain ⟨total, netfilter, hsamples⟩ := PacketLoss.collectOnce_samples labels now cache
  rw [hsamples, apart_iff cache.keys_nodup (by decide)]
  rfl

/-! ## Both probes -/

/-- The keys of a map have labels of their own, and a scrape has no two samples alike,
    exactly where no two keys with the same addresses and ports have different protocols
    without a name. -/
theorem samples_apart_iff {n : Nat} (t : Flow.FlowMap n) (cache : PacketLoss.Cache) (ips : IPCache) (nodeName : String)
    (now : PacketLoss.CacheKey → Int) :
    (((∀ j ∈ t, ∀ k ∈ t, flowLabels ips j = flowLabels ips k → j = k) ∧
        (Flow.collectOnce (flowLabels ips) t).Pairwise Apart) ↔
      ∀ j ∈ t, ∀ k ∈ t, Unnamed j.proto → Unnamed k.proto → j.src = k.src → j.dst = k.dst → j.sport = k.sport →
        j.dport = k.dport → j.proto = k.proto) ∧
    (((∀ j ∈ cache, ∀ k ∈ cache, lossLabels ips nodeName j = lossLabels ips nodeName k → j = k) ∧
        (PacketLoss.collectOnce (lossLabels ips nodeName) now cache).1.Pairwise Apart) ↔
      ∀ j ∈ cache, ∀ k ∈ cache, Unnamed j.protocol → Unnamed k.protocol → j.src = k.src → j.dst = k.dst →
        j.protocol = k.protocol) := by
  constructor
  · rw [flow_apart_iff, and_self_iff]
    refine forall₂_congr fun j _ => forall₂_congr fun k _ => ?_
    rw [flowLabels_eq_iff, FlowTuple4.ext_iff, told_apart_iff]
    simp only [and_imp]
  · rw [loss_apart_iff, and_self_iff]
    refine forall₂_congr fun j _ => forall₂_congr fun k _ => ?_
    rw [lossLabels_eq_iff, PacketLoss.CacheKey.ext_iff, told_apart_iff]
    simp only [and_imp]

def frameOf (protocol : UInt8) : Frame where
  bytes := [2, 0, 0, 0, 0, 2, 2, 0, 0, 0, 0, 1, 8, 0, 0x45, 0, 0, 20, 0, 0, 0, 0, 64, protocol, 0, 0, 10, 0, 0, 1, 10, 0, 0, 2]
  linear := 34
  linear_le := by simp
  length_lt := by simp

def greThenEsp : List (Flow.Seen 1) := [⟨.ingress, 0, frameOf 47⟩, ⟨.ingress, 0, frameOf 50⟩]

/-- The key of such a frame: an address is read as the host's number. -/
def keyOf (protocol : UInt8) : FlowTuple4 := ⟨protocol, 0x0100000a, 0x0200000a, 0, 0⟩

/-- They are two keys of the map with one set of labels, and a scrape has samples alike. -/
theorem gre_and_esp_have_one_set_of_labels :
    (keyOf 47 ∈ Flow.run false greThenEsp ∧ keyOf 50 ∈ Flow.run false greThenEsp) ∧
      flowLabels emptyIPCache (keyOf 47) = flowLabels emptyIPCache (keyOf 50) ∧
        ¬(Flow.collectOnce (flowLabels emptyIPCache) (Flow.run false greThenEsp)).Pairwise Apart := by
  have hmem : keyOf 47 ∈ Flow.run false greThenEsp ∧ keyOf 50 ∈ Flow.run false greThenEsp := by decide
  have hlabels : flowLabels emptyIPCache (keyOf 47) = flowLabels emptyIPCache (keyOf 50) :=
    (flowLabels_eq_iff _ _ _).mpr ⟨Or.inr (by decide), rfl, rfl, rfl, rfl⟩
  refine ⟨hmem, hlabels, fun h => ?_⟩
  exact absurd ((flow_apart_iff _ _).mp h _ hmem.1 _ hmem.2 hlabels) (by decide)

end EliteTelemetry.Probes.Scrape
