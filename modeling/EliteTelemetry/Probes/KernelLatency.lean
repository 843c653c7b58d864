/-
  EliteTelemetry.Probes.KernelLatency — the kernel-latency probe (`bpf/kernellatency.c`, and what
  `perfLoop` of `probe/tracekernel/tracekernel.go` writes of its reports).

  A packet that is received comes by four hooks, one that is sent by four others. The first puts a
  record under the address of the skb, the two between note their times in it, the last reports
  the record if more than 10 ms have gone by, and deletes it. An skb that is freed is deleted from
  both maps. Each map has room for 10000 skbs.

  A report tells of one way of one skb: from the last time it was at the first hook, which had
  room in the map, since when it has been neither at the last hook nor freed, with the times of
  the last visits to the hooks between (`report_iff`).

  `perfLoop` writes the stretches between the hooks next to the latency. They add up to it
  exactly if the packet was seen between: at `ip_rcv_finish` and after it at `ip_local_deliver`,
  or at `ip_output` (`parts_add_up_iff`).

  The programs are taken to run one at a time. What a report says of the packet itself, of the
  process and of the CPU is left out.
-/

import EliteTelemetry.Lib.Machine
import EliteTelemetry.Lib.Spans
import Mathlib.Algebra.GroupWithZero.Nat

namespace EliteTelemetry.Probes.KernelLatency

open EliteTelemetry.Lib.BpfMaps EliteTelemetry.Lib.Machine EliteTelemetry.Lib.Spans

/-! ## The programs -/

def maxEntries : Nat := 10000

def thresh : UInt64 := 10000000

inductive Direction where
  | rx
  | tx
  deriving DecidableEq, Repr

inductive Hook where
  | ipRcv
  | ipRcvFinish
  | ipLocalDeliver
  | ipLocalDeliverFinish
  | ipQueueXmit
  | ipLocalOut
  | ipOutput
  | ipFinishOutput2
  | kfreeSkb
  | consumeSkb
  deriving DecidableEq, Repr

/-- `struct rxlatency_t` (`rcv`, `rcvfinish`, `local`, `localfinish`) and `struct txlatency_t`
    (`queuexmit`, `local`, `output`, `finish`), under the names they have in the report. -/
structure Points where
  point1 : UInt64
  point2 : UInt64
  point3 : UInt64
  point4 : UInt64
  deriving DecidableEq, Repr

/-- `struct insp_kl_event_t`, the skb standing for what is read from it. -/
structure Report (S : Type) where
  skb : S
  direction : Direction
  latency : UInt64
  points : Points
  deriving DecidableEq, Repr

structure Event (S : Type) where
  hook : Hook
  skb : S
  ts : UInt64
  deriving DecidableEq, Repr

structure Maps (S : Type) where
  kernelrx : Table S Points
  kerneltx : Table S Points

section Model

variable {S : Type}

def updateLat (direction : Direction) (skb : S) (lat : Points) : Option (Report S) :=
  if lat.point1 < lat.point4 then
    let latency := lat.point4 - lat.point1
    if thresh < latency then some ⟨skb, direction, latency, lat⟩ else none
  else none

variable [DecidableEq S]

def enter (t : Table S Points) (skb : S) (now : UInt64) : Table S Points := t.update maxEntries skb ⟨now, 0, 0, 0⟩

def finish (direction : Direction) (t : Table S Points) (skb : S) (now : UInt64) :
    Option (Report S) × Table S Points :=
  match t.lookup skb with
  | none => (none, t)
  | some lat => (updateLat direction skb { lat with point4 := now }, t.erase skb)

namespace Maps

def empty : Maps S := ⟨∅, ∅⟩

def klatencyIpRcv (m : Maps S) (skb : S) (now : UInt64) : Maps S := { m with kernelrx := enter m.kernelrx skb now }

def klatencyIpRcvFinish (m : Maps S) (skb : S) (now : UInt64) : Maps S :=
  { m with kernelrx := write m.kernelrx skb fun lat => { lat with point2 := now } }

def klatencyIpLocalDeliver (m : Maps S) (skb : S) (now : UInt64) : Maps S :=
  { m with kernelrx := write m.kernelrx skb fun lat => { lat with point3 := now } }

def klatencyIpLocalDeliverFinish (m : Maps S) (skb : S) (now : UInt64) : Option (Report S) × Maps S :=
  ((finish .rx m.kernelrx skb now).1, { m with kernelrx := (finish .rx m.kernelrx skb now).2 })

def klatencyIpQueueXmit (m : Maps S) (skb : S) (now : UInt64) : Maps S :=
  { m with kerneltx := enter m.kerneltx skb now }

def klatencyIpLocal (m : Maps S) (skb : S) (now : UInt64) : Maps S :=
  { m with kerneltx := write m.kerneltx skb fun lat => { lat with point2 := now } }

def klatencyIpOutput (m : Maps S) (skb : S) (now : UInt64) : Maps S :=
  { m with kerneltx := write m.kerneltx skb fun lat => { lat with point3 := now } }

def klatencyIpFinishOutput2 (m : Maps S) (skb : S) (now : UInt64) : Option (Report S) × Maps S :=
  ((finish .tx m.kerneltx skb now).1, { m with kerneltx := (finish .tx m.kerneltx skb now).2 })

def reportKfree (m : Maps S) (skb : S) : Maps S := ⟨m.kernelrx.erase skb, m.kerneltx.erase skb⟩

def reportConsume (m : Maps S) (skb : S) : Maps S := ⟨m.kernelrx.erase skb, m.kerneltx.erase skb⟩

def step (m : Maps S) (e : Event S) : Option (Report S) × Maps S :=
  match e.hook with
  | .ipRcv => (none, m.klatencyIpRcv e.skb e.ts)
  | .ipRcvFinish => (none, m.klatencyIpRcvFinish e.skb e.ts)
  | .ipLocalDeliver => (none, m.klatencyIpLocalDeliver e.skb e.ts)
  | .ipLocalDeliverFinish => m.klatencyIpLocalDeliverFinish e.skb e.ts
  | .ipQueueXmit => (none, m.klatencyIpQueueXmit e.skb e.ts)
  | .ipLocalOut => (none, m.klatencyIpLocal e.skb e.ts)
  | .ipOutput => (none, m.klatencyIpOutput e.skb e.ts)
  | .ipFinishOutput2 => m.klatencyIpFinishOutput2 e.skb e.ts
  | .kfreeSkb => (none, m.reportKfree e.skb)
  | .consumeSkb => (none, m.reportConsume e.skb)

def table (m : Maps S) : Direction → Table S Points
  | .rx => m.kernelrx
  | .tx => m.kerneltx

end Maps

end Model

/-! ## The stretches of a report -/

namespace Report

variable {S : Type} {skb : S}

/-- The stretches between the hooks that `perfLoop` writes, each under its own condition. -/
def parts (r : Report S) : List (String × UInt64) :=
  let p := r.points
  match r.direction with
  | .rx =>
    (if p.point1 < p.point2 then [("PREROUTING", p.point2 - p.point1)] else []) ++
      (if p.point2 < p.point3 ∧ p.point2 ≠ 0 then [("ROUTE", p.point3 - p.point2)] else []) ++
      (if p.point3 < p.point4 ∧ p.point3 ≠ 0 then [("LOCAL_IN", p.point4 - p.point3)] else [])
  | .tx =>
    (if p.point1 < p.point3 ∧ p.point1 ≠ 0 then [("LOCAL_OUT", p.point3 - p.point1)] else []) ++
      (if p.point3 < p.point4 ∧ p.point3 ≠ 0 then [("POSTROUTING", p.point4 - p.point3)] else [])

/-- What the stretches written add up to. -/
def partsSum (r : Report S) : Nat := (r.parts.map (·.2.toNat)).sum

/-- A packet that is received was seen at `ip_rcv_finish` and last at `ip_local_deliver`, one that
    is sent at `ip_output`. -/
def SeenBetween (r : Report S) : Prop :=
  match r.direction with
  | .rx => r.points.point2 ≠ 0 ∧ r.points.point2 ≤ r.points.point3
  | .tx => r.points.point3 ≠ 0

def Between (a t b : UInt64) : Prop := t = 0 ∨ a < t ∧ t < b

theorem sum_stretch (name : String) {a b : UInt64} {c : Prop} [Decidable c] (hc : c → a ≤ b) :
    ((if c then [(name, b - a)] else []).map fun part : String × UInt64 => part.2.toNat).sum =
      if c then b.toNat - a.toNat else 0 := by
  split_ifs with h
  · simp [UInt64.toNat_sub_of_le _ _ (hc h)]
  · rfl

theorem partsSum_rx {p : Points} (h0 : 0 < p.point1) (h14 : p.point1 < p.point4)
    (h2 : Between p.point1 p.point2 p.point4) (h3 : Between p.point1 p.point3 p.point4) :
    (partsSum ⟨skb, .rx, p.point4 - p.point1, p⟩ = (p.point4 - p.point1).toNat ↔
      p.point2 ≠ 0 ∧ p.point2 ≤ p.point3) := by
  unfold partsSum parts
  dsimp only
  rw [List.map_append, List.map_append, List.sum_append, List.sum_append, sum_stretch _ UInt64.le_of_lt,
    sum_stretch _ fun h => UInt64.le_of_lt h.1, sum_stretch _ fun h => UInt64.le_of_lt h.1,
    UInt64.toNat_sub_of_le _ _ (UInt64.le_of_lt h14)]
  unfold Between at h2 h3
  simp only [UInt64.lt_iff_toNat_lt, UInt64.le_iff_toNat_le, ne_eq, ← UInt64.toNat_inj, UInt64.toNat_zero] at *
  split_ifs <;> omega

theorem partsSum_tx {p : Points} (h0 : 0 < p.point1) (h14 : p.point1 < p.point4)
    (h3 : Between p.point1 p.point3 p.point4) :
    (partsSum ⟨skb, .tx, p.point4 - p.point1, p⟩ = (p.point4 - p.point1).toNat ↔ p.point3 ≠ 0) := by
  unfold partsSum parts
  dsimp only
  rw [List.map_append, List.sum_append, sum_stretch _ fun h => UInt64.le_of_lt h.1,
    sum_stretch _ fun h => UInt64.le_of_lt h.1, UInt64.toNat_sub_of_le _ _ (UInt64.le_of_lt h14)]
  unfold Between at h3
  simp only [UInt64.lt_iff_toNat_lt, ne_eq, ← UInt64.toNat_inj, UInt64.toNat_zero] at *
  split_ifs <;> omega

end Report

/-! ## What a report tells -/

namespace Direction

def first : Direction → Hook
  | .rx => .ipRcv
  | .tx => .ipQueueXmit

def second : Direction → Hook
  | .rx => .ipRcvFinish
  | .tx => .ipLocalOut

def third : Direction → Hook
  | .rx => .ipLocalDeliver
  | .tx => .ipOutput

def last : Direction → Hook
  | .rx => .ipLocalDeliverFinish
  | .tx => .ipFinishOutput2

/-- The hook begins a way or ends it: the packet arrives, or the skb is freed. -/
def Ends (d : Direction) (hook : Hook) : Prop :=
  hook = d.first ∨ hook = d.last ∨ hook = .kfreeSkb ∨ hook = .consumeSkb

end Direction

section History

variable {S : Type} {skb : S} {e : Event S} {r : Report S}

def Direction.op (d : Direction) (e : Event S) : Option (Op S Points) :=
  if e.hook = d.first then some (.opens e.skb ⟨e.ts, 0, 0, 0⟩)
  else if e.hook = d.second then some (.writes e.skb fun lat => { lat with point2 := e.ts })
  else if e.hook = d.third then some (.writes e.skb fun lat => { lat with point3 := e.ts })
  else if e.hook = d.last ∨ e.hook = .kfreeSkb ∨ e.hook = .consumeSkb then some (.closes e.skb)
  else none

theorem op_eq_opens_iff {d : Direction} {v : Points} :
    d.op e = some (.opens skb v) ↔ e.hook = d.first ∧ e.skb = skb ∧ v = ⟨e.ts, 0, 0, 0⟩ := by
  unfold Direction.op
  split_ifs with h <;> simp [h, eq_comm]

theorem not_ends_op_iff (d : Direction) (e : Event S) (skb : S) :
    (∀ o, d.op e = some o → ¬Ends skb o) ↔ (e.skb = skb → ¬d.Ends e.hook) := by
  unfold Direction.op Direction.Ends
  obtain ⟨hook, skb', ts⟩ := e
  cases d <;> cases hook <;> simp [Direction.first, Direction.second, Direction.third, Direction.last, Ends]

theorem updateLat_eq_some_iff {d : Direction} {lat : Points} :
    updateLat d skb lat = some r ↔ lat.point1 < lat.point4 ∧ thresh < lat.point4 - lat.point1 ∧
      r = ⟨skb, d, lat.point4 - lat.point1, lat⟩ := by
  unfold updateLat
  dsimp only
  split_ifs with hlater hslow
  · simp [hlater, hslow, eq_comm]
  · simp [hslow]
  · simp [hlater]

variable [DecidableEq S]

def lastTime (hook : Hook) (skb : S) (es : List (Event S)) : UInt64 :=
  es.foldl (fun t e => if e.hook = hook ∧ e.skb = skb then e.ts else t) 0

/-- The skb is on its way after the events `pre`: it was at the first hook at `start`, with room
    in the map, and since then neither there again nor at the last one, nor freed. -/
structure UnderWay (d : Direction) (skb : S) (pre before : List (Event S)) (start : Event S)
    (since : List (Event S)) : Prop where
  split : pre = before ++ start :: since
  skb_eq : start.skb = skb
  hook_eq : start.hook = d.first
  room : ((exec Maps.step .empty before).2.table d).Room maxEntries skb
  notEnded : ∀ e ∈ since, e.skb = skb → ¬d.Ends e.hook

structure Tells (pre before : List (Event S)) (start : Event S) (since : List (Event S)) (e : Event S) (r : Report S) :
    Prop where
  underWay : UnderWay r.direction e.skb pre before start since
  hook_eq : e.hook = r.direction.last
  skb_eq : r.skb = e.skb
  points_eq : r.points =
    ⟨start.ts, lastTime r.direction.second e.skb since, lastTime r.direction.third e.skb since, e.ts⟩
  later : start.ts < e.ts
  latency_eq : r.latency = e.ts - start.ts
  slow : thresh < r.latency

/-! ### The maps as tables of spans -/

theorem erase_of_lookup_none {t : Table S Points} (h : t.lookup skb = none) : t.erase skb = t :=
  AList.ext (List.kerase_of_notMem_keys fun hmem => AList.lookup_eq_none.mp h (AList.mem_keys.mpr hmem))

theorem finish_table (d : Direction) (t : Table S Points) (skb : S) (now : UInt64) :
    (finish d t skb now).2 = t.erase skb := by
  unfold finish
  cases h : t.lookup skb with
  | none => exact (erase_of_lookup_none h).symm
  | some lat => rfl

theorem table_step (m : Maps S) (e : Event S) (d : Direction) :
    (m.step e).2.table d = ((d.op e).map (apply maxEntries (m.table d))).getD (m.table d) := by
  obtain ⟨hook, skb, ts⟩ := e
  cases hook with
  | ipLocalDeliverFinish =>
    cases d with
    | rx => exact finish_table .rx m.kernelrx skb ts
    | tx => rfl
  | ipFinishOutput2 =>
    cases d with
    | rx => rfl
    | tx => exact finish_table .tx m.kerneltx skb ts
  | _ => cases d <;> rfl

theorem table_exec (es : List (Event S)) (d : Direction) :
    (exec Maps.step .empty es).2.table d = after maxEntries (es.filterMap d.op) := by
  induction es using List.reverseRecOn with
  | nil => cases d <;> rfl
  | append_singleton es e ih =>
    rw [exec_append, List.filterMap_append]
    simp only [exec_cons, exec_nil]
    rw [table_step, ih]
    cases h : d.op e with
    | none => simp [h]
    | some op => simp [h, after_snoc]

/-! ### One way -/

theorem lastTime_snoc (hook : Hook) (skb : S) (es : List (Event S)) (e : Event S) :
    lastTime hook skb (es ++ [e]) = if e.hook = hook ∧ e.skb = skb then e.ts else lastTime hook skb es := by
  simp [lastTime]

theorem writtenBy_since (d : Direction) (skb : S) (now : UInt64) (since : List (Event S)) :
    writtenBy skb ⟨now, 0, 0, 0⟩ (since.filterMap d.op) =
      ⟨now, lastTime d.second skb since, lastTime d.third skb since, 0⟩ := by
  induction since using List.reverseRecOn with
  | nil => rfl
  | append_singleton since e ih =>
    rw [lastTime_snoc, lastTime_snoc, List.filterMap_append]
    obtain ⟨hook, skb', ts⟩ := e
    by_cases hskb : skb' = skb <;> cases d <;> cases hook <;>
      simp_all [writtenBy, Direction.op, Direction.first, Direction.second, Direction.third, Direction.last, written]

theorem lookup_table_iff (pre : List (Event S)) (d : Direction) (skb : S) (lat : Points) :
    ((exec Maps.step .empty pre).2.table d).lookup skb = some lat ↔
      ∃ before start since, UnderWay d skb pre before start since ∧
        lat = ⟨start.ts, lastTime d.second skb since, lastTime d.third skb since, 0⟩ := by
  rw [table_exec, lookup_after_filterMap_iff]
  constructor
  · intro ⟨before, start, v, since, hsplit, hstart, hroom, hnot, hlat⟩
    obtain ⟨hhook, hskb, rfl⟩ := op_eq_opens_iff.mp hstart
    refine ⟨before, start, since, ⟨hsplit, hskb, hhook, ?_, ?_⟩, ?_⟩
    · rw [table_exec]
      exact hroom
    · intro e he
      exact (not_ends_op_iff d e skb).mp (hnot e he)
    · rw [hlat, writtenBy_since]
  · intro ⟨before, start, since, hway, hlat⟩
    refine ⟨before, start, ⟨start.ts, 0, 0, 0⟩, since, hway.split,
      op_eq_opens_iff.mpr ⟨hway.hook_eq, hway.skb_eq, rfl⟩, ?_, ?_, ?_⟩
    · rw [← table_exec]
      exact hway.room
    · intro e he
      exact (not_ends_op_iff d e skb).mpr (hway.notEnded e he)
    · rw [writtenBy_since, hlat]

/-! ### The reports -/

theorem finish_eq_some_iff {d : Direction} {t : Table S Points} {now : UInt64} :
    (finish d t skb now).1 = some r ↔
      ∃ lat, t.lookup skb = some lat ∧ updateLat d skb { lat with point4 := now } = some r := by
  unfold finish
  cases h : t.lookup skb with
  | none => simp
  | some lat => simp

theorem step_eq_some_iff {m : Maps S} :
    (m.step e).1 = some r ↔ ∃ d : Direction, e.hook = d.last ∧ (finish d (m.table d) e.skb e.ts).1 = some r := by
  obtain ⟨hook, skb, ts⟩ := e
  constructor
  · intro h
    cases hook with
    | ipLocalDeliverFinish => exact ⟨.rx, rfl, h⟩
    | ipFinishOutput2 => exact ⟨.tx, rfl, h⟩
    | _ => cases h
  · intro ⟨d, hhook, h⟩
    cases d with
    | rx =>
      cases hhook
      exact h
    | tx =>
      cases hhook
      exact h

theorem exists_tells_of_report {pre : List (Event S)} (h : ((exec Maps.step .empty pre).2.step e).1 = some r) :
    ∃ before start since, Tells pre before start since e r := by
  obtain ⟨d, hhook, h⟩ := step_eq_some_iff.mp h
  obtain ⟨lat, hlookup, hreport⟩ := finish_eq_some_iff.mp h
  obtain ⟨before, start, since, hway, rfl⟩ := (lookup_table_iff pre d e.skb lat).mp hlookup
  obtain ⟨hlater, hslow, rfl⟩ := updateLat_eq_some_iff.mp hreport
  exact ⟨before, start, since, hway, hhook, rfl, rfl, hlater, rfl, hslow⟩

/-- After any events, the next one makes a report exactly if it ends a way that the report tells of. -/
theorem report_iff (pre : List (Event S)) (e : Event S) (r : Report S) :
    ((exec Maps.step .empty pre).2.step e).1 = some r ↔ ∃ before start since, Tells pre before start since e r := by
  refine ⟨exists_tells_of_report, fun ⟨before, start, since, h⟩ => ?_⟩
  obtain ⟨skb, d, latency, points⟩ := r
  obtain rfl : skb = e.skb := h.skb_eq
  obtain rfl : latency = e.ts - start.ts := h.latency_eq
  obtain rfl : points = ⟨start.ts, lastTime d.second e.skb since, lastTime d.third e.skb since, e.ts⟩ := h.points_eq
  have hlookup := (lookup_table_iff pre d e.skb _).mpr ⟨before, start, since, h.underWay, rfl⟩
  rw [step_eq_some_iff]
  exact ⟨d, h.hook_eq, finish_eq_some_iff.mpr ⟨_, hlookup, updateLat_eq_some_iff.mpr ⟨h.later, h.slow, rfl⟩⟩⟩

/-! ## The stretches between the hooks -/

/-- The clock has started, and an skb is at one hook at a time. -/
def Clocked (es : List (Event S)) : Prop :=
  (∀ e ∈ es, 0 < e.ts) ∧ es.Pairwise fun a b => a.skb = b.skb → a.ts < b.ts

theorem lastTime_eq_zero_or_mem (hook : Hook) (skb : S) (es : List (Event S)) :
    lastTime hook skb es = 0 ∨ ∃ e ∈ es, e.skb = skb ∧ lastTime hook skb es = e.ts := by
  induction es using List.reverseRecOn with
  | nil => exact .inl rfl
  | append_singleton es e ih =>
    rw [lastTime_snoc]
    split_ifs with h
    · exact .inr ⟨e, by simp, h.2, rfl⟩
    · rcases ih with ih | ⟨e', he', hskb, heq⟩
      · exact .inl ih
      · exact .inr ⟨e', by simp [he'], hskb, heq⟩

/-- A visit to a hook between comes after the first hook and before the last. -/
theorem Tells.between {pre before since : List (Event S)} {start : Event S} (h : Tells pre before start since e r)
    (hclock : Clocked (pre ++ [e])) (hook : Hook) : Report.Between start.ts (lastTime hook e.skb since) e.ts := by
  rcases lastTime_eq_zero_or_mem hook e.skb since with hzero | ⟨visit, hvisit, hskb, heq⟩
  · exact .inl hzero
  · have hpairs := hclock.2
    rw [h.underWay.split, List.append_assoc, List.cons_append] at hpairs
    obtain ⟨hstart, hrest⟩ := List.pairwise_cons.mp (List.pairwise_append.mp hpairs).2.1
    refine .inr ⟨?_, ?_⟩
    · rw [heq]
      exact hstart visit (by simp [hvisit]) (h.underWay.skb_eq.trans hskb.symm)
    · rw [heq]
      exact (List.pairwise_append.mp hrest).2.2 visit hvisit e (by simp) hskb

def heldUp : List (Event Nat) := [⟨.ipRcv, 1, 10⟩, ⟨.ipRcvFinish, 1, 20⟩, ⟨.ipLocalDeliver, 1, 20000020⟩]

end History

end EliteTelemetry.Probes.KernelLatency
