/-
  EliteTelemetry.Probes.Labels — the labels of a tuple (`probe/legacy.go`,
  `bpfutil/format.go`).

  A metric's labels are the protocol's name, both addresses with what the IP cache knows of
  them, and the ports. All parts but the first keep what they are made from apart; the name
  of a protocol does not: all but four of the 256 protocols are called "IP"
  (`getProtoStr_eq_iff`, `buildTupleMetricsLabels_eq_iff`).
-/

import EliteTelemetry.Ipcache.Agent
import EliteTelemetry.Lib.Decimal

namespace EliteTelemetry.Probes.Labels

open EliteTelemetry.Ipcache
open EliteTelemetry.Lib.Decimal

structure ProbeTuple where
  protocol : UInt8
  src : String
  dst : String
  sport : UInt16
  dport : UInt16
  deriving DecidableEq, Repr

/-- What a collector hands to `emit`. The value is the number itself, not its float64. -/
structure Sample (L : Type) where
  name : String
  labels : L
  value : Nat
  deriving DecidableEq, Repr

/-! ## Texts -/

def getProtoStr (proto : UInt8) : String :=
  if proto = 6 then "TCP"
  else if proto = 17 then "UDP"
  else if proto = 1 then "ICMP"
  else if proto = 58 then "ICMP6"
  else "IP"

/-- A protocol that has no name of its own. -/
def Unnamed (proto : UInt8) : Prop := proto ≠ 6 ∧ proto ≠ 17 ∧ proto ≠ 1 ∧ proto ≠ 58

instance (proto : UInt8) : Decidable (Unnamed proto) := inferInstanceAs (Decidable (_ ∧ _))

theorem getProtoStr_eq_iff (p q : UInt8) : getProtoStr p = getProtoStr q ↔ p = q ∨ Unnamed p ∧ Unnamed q := by
  constructor
  · intro h
    unfold Unnamed
    unfold getProtoStr at h
    split_ifs at h <;> simp_all
  · rintro (h | ⟨hp, hq⟩)
    · rw [h]
    · simp [getProtoStr, hp.1, hp.2.1, hp.2.2.1, hp.2.2.2, hq.1, hq.2.1, hq.2.2.1, hq.2.2.2]

theorem told_apart_iff {p q : UInt8} {R : Prop} :
    ((p = q ∨ Unnamed p ∧ Unnamed q) ∧ R → p = q ∧ R) ↔ (Unnamed p → Unnamed q → R → p = q) := by
  constructor
  · intro h hp hq hR
    exact (h ⟨Or.inr ⟨hp, hq⟩, hR⟩).1
  · rintro h ⟨heq | ⟨hp, hq⟩, hR⟩
    · exact ⟨heq, hR⟩
    · exact ⟨h hp hq hR, hR⟩

def addrBytes (addr : UInt32) : List Nat :=
  [addr.toNat % 256, addr.toNat / 256 % 256, addr.toNat / 65536 % 256, addr.toNat / 16777216 % 256]

def getV4AddrStr (addr : UInt32) : String := dotted (addrBytes addr)

theorem getV4AddrStr_inj {a b : UInt32} : getV4AddrStr a = getV4AddrStr b ↔ a = b := by
  constructor
  · intro h
    have hbytes : addrBytes a = addrBytes b := (dotted_inj (by rfl)).mp h
    have ha := a.toNat_lt
    have hb := b.toNat_lt
    simp only [addrBytes, List.cons.injEq, and_true] at hbytes
    refine UInt32.toNat_inj.mp ?_
    omega
  · intro h
    rw [h]

/-! ## Labels of a metric -/

def ipInfo (cache : IPCache) (ip : String) : List String :=
  match cache.getIPInfo ip with
  | none => ["unknown", "", "", ""]
  | some (.node _ nodeName) => ["node", nodeName, "", ""]
  | some (.pod _ podName podNamespace) => ["pod", "", podNamespace, podName]

def buildTupleMetricsLabels (cache : IPCache) (tuple : ProbeTuple) : List String :=
  getProtoStr tuple.protocol :: tuple.src :: (ipInfo cache tuple.src ++
    (tuple.dst :: (ipInfo cache tuple.dst ++ [decimal tuple.sport.toNat, decimal tuple.dport.toNat])))

theorem buildTupleMetricsLabels_eq_iff (cache : IPCache) (s t : ProbeTuple) :
    buildTupleMetricsLabels cache s = buildTupleMetricsLabels cache t ↔
      getProtoStr s.protocol = getProtoStr t.protocol ∧ s.src = t.src ∧ s.dst = t.dst ∧ s.sport = t.sport ∧
        s.dport = t.dport := by
  constructor
  · intro h
    obtain ⟨hproto, h⟩ := List.cons.inj h
    obtain ⟨hsrc, h⟩ := List.cons.inj h
    rw [hsrc, List.append_cancel_left_eq] at h
    obtain ⟨hdst, h⟩ := List.cons.inj h
    rw [hdst, List.append_cancel_left_eq] at h
    obtain ⟨hsport, h⟩ := List.cons.inj h
    obtain ⟨hdport, -⟩ := List.cons.inj h
    exact ⟨hproto, hsrc, hdst, UInt16.toNat_inj.mp (decimal_inj.mp hsport),
      UInt16.toNat_inj.mp (decimal_inj.mp hdport)⟩
  · rintro ⟨hproto, hsrc, hdst, hsport, hdport⟩
    unfold buildTupleMetricsLabels
    rw [hproto, hsrc, hdst, hsport, hdport]

/-! ## Labels of an event -/

structure Label where
  name : String
  value : String
  deriving DecidableEq, Repr

/-- What an event says of an address. Whatever the cache has, it ends up as unknown. -/
def eventIPInfo (pre : String) : List Label :=
  [⟨pre ++ "_type", "unknown"⟩, ⟨pre ++ "_node", ""⟩, ⟨pre ++ "_namespace", ""⟩, ⟨pre ++ "_pod", ""⟩]

def buildTupleEventLabels (tuple : ProbeTuple) : List Label :=
  ⟨"protocol", getProtoStr tuple.protocol⟩ :: ⟨"src", tuple.src⟩ :: (eventIPInfo "src" ++
    (⟨"dst", tuple.dst⟩ :: (eventIPInfo "dst" ++
      [⟨"sport", decimal tuple.sport.toNat⟩, ⟨"dport", decimal tuple.dport.toNat⟩])))

/-! ## Scrapes with two samples for each key -/

/-- Samples that differ in their name or in their labels. -/
def Apart {L : Type} (a b : Sample L) : Prop := ¬(a.name = b.name ∧ a.labels = b.labels)

/-- A scrape that emits two samples of different names for each key of a list emits no two
    alike exactly where no two keys have the same labels. -/
theorem apart_iff {α L : Type} {l : List α} (hl : l.Nodup) {n₁ n₂ : String} (hn : n₁ ≠ n₂) (labels : α → L)
    (v₁ v₂ : α → Nat) :
    (l.flatMap fun a => [⟨n₁, labels a, v₁ a⟩, ⟨n₂, labels a, v₂ a⟩]).Pairwise Apart ↔
      ∀ a ∈ l, ∀ b ∈ l, labels a = labels b → a = b := by
  have hpair : ∀ a b, (∀ x ∈ ([⟨n₁, labels a, v₁ a⟩, ⟨n₂, labels a, v₂ a⟩] : List (Sample L)),
      ∀ y ∈ ([⟨n₁, labels b, v₁ b⟩, ⟨n₂, labels b, v₂ b⟩] : List (Sample L)), Apart x y) ↔ labels a ≠ labels b := by
    intro a b
    simp [Apart, hn, hn.symm]
  have hown : ∀ a, ([⟨n₁, labels a, v₁ a⟩, ⟨n₂, labels a, v₂ a⟩] : List (Sample L)).Pairwise Apart := by
    intro a
    simp [Apart, hn]
  rw [List.pairwise_flatMap, and_iff_right fun a _ => hown a]
  simp only [hpair]
  constructor
  · intro h a ha b hb hab
    have : Std.Symm fun a b => labels a ≠ labels b := ⟨fun _ _ hne heq => hne heq.symm⟩
    by_contra hne
    exact h.forall ha hb hne hab
  · intro h
    exact hl.imp_of_mem fun ha hb hne hab => hne (h _ ha _ hb hab)

end EliteTelemetry.Probes.Labels
