/-
  EliteTelemetry.Probes.Ports — the ports of a packet or a socket, from the kernel to the
  user (`bpf/kernellatency.c`, `bpf/netiftxlatency.c`, `bpf/tcpreset.c`,
  `bpf/socketlatency.c` and the readers of their events; the labels of the packet-loss and
  the flow probe).

  The writers differ in the byte order they store a port in: `set_tuple` stores the port
  itself, `set_flow_tuple4` the bytes of the network, `set_tuple_sock` the one for the source
  and the other for the destination. The readers differ too: an event's text shows each port
  with its bytes swapped, labels show it as it is stored. What a reader shows is the port
  itself where writer and reader agree, and elsewhere for those ports whose two bytes are the
  same. `ports_truthful_iff` says, path by path, when what the user reads is true.

  `set_tuple` can fail, and the latency probes and the reset probe do not ask: they show the
  ports of a packet it does not take as 0. They may also be read from the wrong place, where
  the offset of the ports does not fit in 16 bits.
-/

import EliteTelemetry.Probes.Scrape

namespace EliteTelemetry.Probes.Ports

open EliteTelemetry.Ipcache
open EliteTelemetry.Lib.ByteOrder
open EliteTelemetry.Lib.Decimal
open EliteTelemetry.Probes.Inspector
open EliteTelemetry.Probes.Labels
open EliteTelemetry.Probes.PacketLoss
open EliteTelemetry.Probes.Scrape

/-! ## What the user reads -/

/-- The fields `name=value` of an event's text. Each reader of events has this text;
    `addrStr` is `GetAddrStr`, and `swap16` is `bits.ReverseBytes16`. -/
def tupleText (addrStr : UInt16 → List UInt8 → String) (t : Tuple) : List Label :=
  [⟨"protocol", getProtoStr t.l4Proto⟩, ⟨"saddr", addrStr t.l3Proto t.saddr⟩,
    ⟨"sport", decimal (swap16 t.sport).toNat⟩, ⟨"daddr", addrStr t.l3Proto t.daddr⟩,
    ⟨"dport", decimal (swap16 t.dport).toNat⟩]

def tupleMetricsLabels : List String :=
  ["protocol", "src", "src_type", "src_node", "src_namespace", "src_pod", "dst", "dst_type", "dst_node",
    "dst_namespace", "dst_pod", "sport", "dport"]

def Shows (fields : List Label) (sport dport : UInt16) : Prop :=
  ⟨"sport", decimal sport.toNat⟩ ∈ fields ∧ ⟨"dport", decimal dport.toNat⟩ ∈ fields

/-- If anything reaches the user, it shows these ports. -/
def Truthful (report : Option (List Label)) (sport dport : UInt16) : Prop :=
  ∀ fields, report = some fields → Shows fields sport dport

theorem truthful_none (sport dport : UInt16) : Truthful none sport dport := fun _ h => absurd h (by simp)

theorem truthful_some (fields : List Label) (sport dport : UInt16) :
    Truthful (some fields) sport dport ↔ Shows fields sport dport := by
  simp [Truthful]

theorem decimal_port_inj {a b : UInt16} : decimal a.toNat = decimal b.toNat ↔ a = b := by
  rw [decimal_inj, UInt16.toNat_inj]

theorem tupleText_shows (addrStr : UInt16 → List UInt8 → String) (t : Tuple) (sport dport : UInt16) :
    Shows (tupleText addrStr t) sport dport ↔ swap16 t.sport = sport ∧ swap16 t.dport = dport := by
  simp [Shows, tupleText, decimal_port_inj, eq_comm]

theorem not_mem_of_name {fields : List Label} {name : String} (h : name ∉ fields.map Label.name) (value : String) :
    (⟨name, value⟩ : Label) ∉ fields := fun hmem => h (List.mem_map_of_mem hmem)

theorem eventLabels_shows (t : ProbeTuple) (sport dport : UInt16) :
    Shows (buildTupleEventLabels t) sport dport ↔ t.sport = sport ∧ t.dport = dport := by
  have hsrc : "sport" ∉ (eventIPInfo "src").map Label.name ∧ "dport" ∉ (eventIPInfo "src").map Label.name := by decide
  have hdst : "sport" ∉ (eventIPInfo "dst").map Label.name ∧ "dport" ∉ (eventIPInfo "dst").map Label.name := by decide
  simp [Shows, buildTupleEventLabels, not_mem_of_name hsrc.1, not_mem_of_name hsrc.2, not_mem_of_name hdst.1,
    not_mem_of_name hdst.2, decimal_port_inj, eq_comm]

theorem ipInfo_four (ips : IPCache) (ip : String) : ∃ a b c d, ipInfo ips ip = [a, b, c, d] := by
  unfold ipInfo
  split
  · exact ⟨_, _, _, _, rfl⟩
  · exact ⟨_, _, _, _, rfl⟩
  · exact ⟨_, _, _, _, rfl⟩

theorem metricLabels_length (ips : IPCache) (t : ProbeTuple) :
    tupleMetricsLabels.length = (buildTupleMetricsLabels ips t).length := by
  obtain ⟨a, b, c, d, hsrc⟩ := ipInfo_four ips t.src
  obtain ⟨a', b', c', d', hdst⟩ := ipInfo_four ips t.dst
  rw [buildTupleMetricsLabels, hsrc, hdst]
  rfl

/-- The labels of a metric under their names, and more of them behind. -/
theorem metricLabels_shows (ips : IPCache) (t : ProbeTuple) (more : List Label) (sport dport : UInt16)
    (hs : "sport" ∉ more.map Label.name) (hd : "dport" ∉ more.map Label.name) :
    Shows (List.zipWith Label.mk tupleMetricsLabels (buildTupleMetricsLabels ips t) ++ more) sport dport ↔
      t.sport = sport ∧ t.dport = dport := by
  obtain ⟨a, b, c, d, hsrc⟩ := ipInfo_four ips t.src
  obtain ⟨a', b', c', d', hdst⟩ := ipInfo_four ips t.dst
  simp [Shows, tupleMetricsLabels, buildTupleMetricsLabels, hsrc, hdst, not_mem_of_name hs, not_mem_of_name hd,
    decimal_port_inj, eq_comm]

theorem lossLabels_shows (ips : IPCache) (nodeName : String) (key : CacheKey) (sport dport : UInt16) :
    Shows (List.zipWith Label.mk (tupleMetricsLabels ++ ["k8s_node"]) (lossLabels ips nodeName key)) sport dport ↔
      sport = 0 ∧ dport = 0 := by
  unfold lossLabels
  rw [List.zipWith_append (metricLabels_length ips _),
    metricLabels_shows ips _ _ _ _ (by simp) (by simp), CacheKey.tuple, eq_comm, @eq_comm _ 0 dport]

theorem flowLabels_shows (ips : IPCache) (key : FlowTuple4) (sport dport : UInt16) :
    Shows (List.zipWith Label.mk tupleMetricsLabels (flowLabels ips key)) sport dport ↔
      key.sport = sport ∧ key.dport = dport := by
  have hmore := metricLabels_shows ips (Flow.toProbeTuple key) [] sport dport (by simp) (by simp)
  rw [List.append_nil] at hmore
  exact hmore

/-! ## The paths -/

variable {p : Packet} {s : Skb}

section Paths

variable (addrStr : UInt16 → List UInt8 → String) (ips : IPCache) (nodeName : String)

/-- `update_rxlat` and `update_txlat`, and the kernel latency probe's `perfLoop`. -/
def kernelLatencyText (skb : Skb) : Option (List Label) := some (tupleText addrStr (setTuple skb .zero).2)

/-- `report_txlat_events`, and the transmit latency probe's `perfLoop`. -/
def txLatencyText (skb : Skb) : Option (List Label) := some (tupleText addrStr (setTuple skb .zero).2)

def resetText (t : Tuple) : Option (List Label) := if t.l3Proto = ethPIpv6 then none else some (tupleText addrStr t)

def sendResetText (skb : Skb) : Option (List Label) := resetText addrStr (setTuple skb .zero).2

def activeResetText (sk : Sock) : Option (List Label) := resetText addrStr (setTupleSock sk .zero)

/-- `insp_rstrx`; `stackId` is what `bpf_get_stackid` returns. -/
def receivedResetText (stackId : Int) (sk : Sock) : Option (List Label) :=
  if stackId < 0 then none else resetText addrStr (setTupleSock sk .zero)

/-- `report_events`, and the socket latency probe's `perfLoop`, which skips what has no ports. -/
def socketLatencyText (sk : Sock) : Option (List Label) :=
  let t := setTupleSock sk .zero
  if t.dport = 0 ∧ t.sport = 0 then none else some (tupleText addrStr t)

/-- The labels of a packet-loss event that is not left out for its location or its stack. -/
def lossEventLabels (skb : Skb) : Option (List Label) :=
  (kfreeSkb false 0 (some skb) 0).map fun e => buildTupleEventLabels (toProbeTuple addrStr e.tuple)

def lossKey (t : ProbeTuple) : CacheKey := ⟨t.protocol, t.src, t.dst⟩

/-- The labels of the counter a packet-loss event is counted in. -/
def lossMetricLabels (skb : Skb) : Option (List Label) :=
  (kfreeSkb false 0 (some skb) 0).map fun e =>
    List.zipWith Label.mk (tupleMetricsLabels ++ ["k8s_node"])
      (lossLabels ips nodeName (lossKey (toProbeTuple addrStr e.tuple)))

/-- The labels of the flow a frame is counted in, with ports enabled. -/
def flowMetricLabels (f : Frame) : Option (List Label) :=
  (Flow.tupleOf true f).map fun key => List.zipWith Label.mk tupleMetricsLabels (flowLabels ips key)

/-! ## When they are true -/

/-- The offset of the ports fits in 16 bits. -/
def OffsetFits (s : Skb) (p : Packet) : Prop := s.networkHeader.toNat + p.l3.size < 2 ^ 16

/-- Both ports are the same with their bytes swapped. -/
def Symmetric (p : Packet) : Prop := swap16 p.l4.sport = p.l4.sport ∧ swap16 p.l4.dport = p.l4.dport

def NoPorts (p : Packet) : Prop := p.l4.sport = 0 ∧ p.l4.dport = 0

/-- An event's text about a packet is true: the packet is taken and its ports are read the
    same both ways, or it is not and its ports are 0. -/
def TextTrue (s : Skb) (p : Packet) : Prop :=
  if s.Taken p then
    (OffsetFits s p → Symmetric p) ∧
      (¬OffsetFits s p → load16 s.mem (s.l4Off p) = p.l4.sport ∧ load16 s.mem (s.l4Off p + 2) = p.l4.dport)
  else NoPorts p

theorem l4Off_of_fits (h : OffsetFits s p) : s.l4Off p = s.networkHeader.toNat + p.l3.size :=
  Nat.mod_eq_of_lt h

theorem kernel_text_iff (h : s.Has p) :
    Shows (tupleText addrStr (setTuple s .zero).2) p.l4.sport p.l4.dport ↔ TextTrue s p := by
  rw [tupleText_shows, setTuple_eq h]
  unfold TextTrue
  by_cases htaken : s.Taken p
  · rw [if_pos htaken, if_pos htaken.1, if_pos htaken.2]
    dsimp only [Packet.tuple]
    rw [← load16_eq, ← load16_eq]
    by_cases hfits : OffsetFits s p
    · obtain ⟨hsport, hdport⟩ := Packet.ports_of_holds h
      rw [l4Off_of_fits hfits, load16_eq, load16_eq, hsport, hdport]
      simp [hfits, Symmetric]
    · simp [hfits]
  · rw [if_neg htaken]
    have hzero : ∀ t : Int × Tuple, t.2.sport = 0 ∧ t.2.dport = 0 →
        (swap16 t.2.sport = p.l4.sport ∧ swap16 t.2.dport = p.l4.dport ↔ NoPorts p) := by
      rintro t ⟨hs, hd⟩
      have hswap : swap16 0 = 0 := by decide
      rw [hs, hd, hswap, NoPorts, eq_comm, @eq_comm _ 0 p.l4.dport]
    refine hzero _ ?_
    by_cases hl3 : s.L3In p
    · rw [if_pos hl3, if_neg fun hl4 => htaken ⟨hl3, hl4⟩]
      exact ⟨rfl, rfl⟩
    · rw [if_neg hl3]
      exact ⟨rfl, rfl⟩

theorem send_reset_text_iff (h : s.Has p) :
    Truthful (sendResetText addrStr s) p.l4.sport p.l4.dport ↔
      p.l3.proto = ethPIpv6 ∧ s.L3In p ∨ TextTrue s p := by
  have hproto : (setTuple s .zero).2.l3Proto = ethPIpv6 ↔ p.l3.proto = ethPIpv6 ∧ s.L3In p := by
    rw [setTuple_eq h]
    by_cases hl3 : s.L3In p
    · rw [if_pos hl3, and_iff_left hl3]
      split <;> rfl
    · rw [if_neg hl3]
      exact iff_of_false (by decide) fun hboth => hl3 hboth.2
  unfold sendResetText resetText
  by_cases hv6 : p.l3.proto = ethPIpv6 ∧ s.L3In p
  · rw [if_pos (hproto.mpr hv6)]
    exact iff_of_true (truthful_none _ _) (Or.inl hv6)
  · rw [if_neg fun hp => hv6 (hproto.mp hp), truthful_some, kernel_text_iff addrStr h, or_iff_right hv6]

theorem loss_event_iff (h : s.Has p) :
    Truthful (lossEventLabels addrStr s) p.l4.sport p.l4.dport ↔
      (s.Taken p → ¬OffsetFits s p →
        netValue16 s.mem (s.l4Off p) = p.l4.sport ∧ netValue16 s.mem (s.l4Off p + 2) = p.l4.dport) := by
  unfold lossEventLabels
  rw [kfreeSkb_eq h]
  by_cases htaken : s.Taken p
  · rw [if_pos htaken, Option.map_some, truthful_some, eventLabels_shows]
    by_cases hfits : OffsetFits s p
    · obtain ⟨hsport, hdport⟩ := Packet.ports_of_holds h
      rw [l4Off_of_fits hfits]
      exact iff_of_true ⟨hsport, hdport⟩ fun _ hout => absurd hfits hout
    · simp [htaken, hfits, toProbeTuple, Packet.tuple]
  · rw [if_neg htaken]
    exact iff_of_true (truthful_none _ _) fun ht => absurd ht htaken

theorem loss_metric_iff (h : s.Has p) :
    Truthful (lossMetricLabels addrStr ips nodeName s) p.l4.sport p.l4.dport ↔ (s.Taken p → NoPorts p) := by
  unfold lossMetricLabels
  rw [kfreeSkb_eq h]
  by_cases htaken : s.Taken p
  · rw [if_pos htaken, Option.map_some, truthful_some, lossLabels_shows]
    simp [htaken, NoPorts]
  · rw [if_neg htaken]
    exact iff_of_true (truthful_none _ _) fun ht => absurd ht htaken

theorem flow_metric_iff {f : Frame} (h : f.Has p) :
    Truthful (flowMetricLabels ips f) p.l4.sport p.l4.dport ↔
      (p.l3.proto = ethPIp → f.linear < ethhdrSize + p.l3.size + p.l4.proto.size ∨ Symmetric p) := by
  unfold flowMetricLabels Flow.tupleOf
  by_cases h4 : p.l3.proto = ethPIp
  · have hip : f.etherType = Flow.filterProtocol := h.1.trans h4
    rw [if_pos hip, setFlowTuple4_of_v4 h h4, forall_prop_of_true h4]
    split
    · rename_i hout
      exact iff_of_true (truthful_none _ _) (Or.inl hout)
    · rename_i hin
      rw [Option.map_some, truthful_some, flowLabels_shows, or_iff_right hin]
      rfl
  · have hother : ¬f.etherType = Flow.filterProtocol := fun hf => h4 (h.1.symm.trans hf)
    rw [if_neg hother]
    exact iff_of_true (truthful_none _ _) fun hp => absurd hp h4

theorem socket_tuple (sk : Sock) :
    (setTupleSock sk .zero).sport = sk.num ∧ (setTupleSock sk .zero).dport = sk.dport ∧
      ((setTupleSock sk .zero).l3Proto = ethPIpv6 ↔ sk.family = pfInet6) := by
  unfold setTupleSock
  split
  · rename_i h
    exact ⟨rfl, rfl, iff_of_true rfl h⟩
  · rename_i h
    have hne : ethPIp ≠ ethPIpv6 := by decide
    exact ⟨rfl, rfl, iff_of_false hne h⟩

/-- The text about a socket has the destination port right and the source port swapped. -/
theorem socket_text_iff (sk : Sock) :
    Shows (tupleText addrStr (setTupleSock sk .zero)) sk.num (swap16 sk.dport) ↔ swap16 sk.num = sk.num := by
  obtain ⟨hsport, hdport, -⟩ := socket_tuple sk
  rw [tupleText_shows, hsport, hdport]
  exact and_iff_left rfl

theorem active_reset_text_iff (sk : Sock) :
    Truthful (activeResetText addrStr sk) sk.num (swap16 sk.dport) ↔ sk.family = pfInet6 ∨ swap16 sk.num = sk.num := by
  have hproto := (socket_tuple sk).2.2
  unfold activeResetText resetText
  by_cases hv6 : sk.family = pfInet6
  · rw [if_pos (hproto.mpr hv6)]
    exact iff_of_true (truthful_none _ _) (Or.inl hv6)
  · rw [if_neg fun hp => hv6 (hproto.mp hp), truthful_some, socket_text_iff, or_iff_right hv6]

theorem socket_latency_text_iff (sk : Sock) :
    Truthful (socketLatencyText addrStr sk) sk.num (swap16 sk.dport) ↔ swap16 sk.num = sk.num := by
  obtain ⟨hsport, hdport, -⟩ := socket_tuple sk
  unfold socketLatencyText
  dsimp only
  rw [hsport, hdport]
  by_cases hzero : sk.dport = 0 ∧ sk.num = 0
  · rw [if_pos hzero]
    exact iff_of_true (truthful_none _ _) (by rw [hzero.2]; decide)
  · rw [if_neg hzero, truthful_some, socket_text_iff]

end Paths

def webSocket : Sock where
  family := 2
  rcvSaddr := [10, 0, 0, 1]
  daddr := [10, 0, 0, 2]
  v6RcvSaddr := []
  v6Daddr := []
  num := 80
  dport := swap16 40000
  protocol := 6

def acknowledgementFrame : Frame where
  bytes := [2, 0, 0, 0, 0, 2, 2, 0, 0, 0, 0, 1, 8, 0] ++ acknowledgement.headers
  linear := 54
  linear_le := by decide
  length_lt := by decide

end EliteTelemetry.Probes.Ports
