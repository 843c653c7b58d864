/-
  EliteTelemetry.Probes.PacketLoss — the packet-loss probe (`bpf/packetloss.c`,
  `probe/tracepacketloss/packetloss.go`).

  The program at `kfree_skb` reports an event for an skb whose headers `set_tuple` finds.
  `set_tuple` compares offsets from `skb->head` with `skb->len`, which counts the bytes of
  the packet: a packet is reported exactly where its headers would still lie within its own
  length if the headroom were counted in (`a_packet_is_reported_iff`). A short packet behind
  a long headroom is lost without an event.

  On the other side of the ring, the events are counted by protocol and addresses, and a
  scrape walks over the counters and drops those that are old (`collectKeys_samples`).
-/

import EliteTelemetry.Probes.Inspector
import EliteTelemetry.Probes.Labels

namespace EliteTelemetry.Probes.PacketLoss

open EliteTelemetry.Lib.ByteOrder
open EliteTelemetry.Probes.Inspector
open EliteTelemetry.Probes.Labels

/-! ## The program -/

structure Event where
  tuple : Tuple
  location : UInt64
  stackId : Int
  deriving DecidableEq, Repr

/-- `kfree_skb`: the event it puts out, if any. `stackId` is what `bpf_get_stackid` returns. -/
def kfreeSkb (enableStack : Bool) (stackId : Int) (skb : Option Skb) (location : UInt64) : Option Event :=
  match skb with
  | none => none
  | some skb =>
    let (ret, tuple) := setTuple skb .zero
    if ret < 0 then none else some ⟨tuple, location, if enableStack then stackId else 0⟩

theorem kfreeSkb_eq {s : Skb} {p : Packet} (h : s.Has p) (enableStack : Bool) (stackId : Int) (location : UInt64) :
    kfreeSkb enableStack stackId (some s) location =
      if s.Taken p then
        some ⟨p.tuple (netValue16 s.mem (s.l4Off p)) (netValue16 s.mem (s.l4Off p + 2)), location,
          if enableStack then stackId else 0⟩
      else none := by
  unfold kfreeSkb
  dsimp only
  rw [setTuple_eq h]
  unfold Skb.Taken
  by_cases hl3 : s.L3In p
  · by_cases hl4 : s.L4In p
    · simp [hl3, hl4]
    · simp [hl3, hl4]
  · simp [hl3]

/-- The linear area contains the headers of the packet, and `skb->len` counts its bytes from
    the network header on. -/
structure Carries (s : Skb) (p : Packet) : Prop where
  has : s.Has p
  linear : s.networkHeader.toNat + p.headers.length ≤ s.tail
  len : s.len.toNat = s.tail - s.networkHeader.toNat + s.dataLen

/-- The tuple has the addresses and protocols of the packet. -/
def Describes (t : Tuple) (p : Packet) : Prop :=
  t.saddr = p.l3.saddr ∧ t.daddr = p.l3.daddr ∧ t.l3Proto = p.l3.proto ∧ t.l4Proto = p.l4.proto.number

instance (t : Tuple) (p : Packet) : Decidable (Describes t p) := inferInstanceAs (Decidable (_ ∧ _))

/-- The offset of the network header counts against the packet's length. -/
theorem a_packet_is_reported_iff {s : Skb} {p : Packet} (h : Carries s p) :
    ((setTuple s .zero).1 = 0 ∧ Describes (setTuple s .zero).2 p ∧
        ∀ enableStack stackId location,
          ∃ e, kfreeSkb enableStack stackId (some s) location = some e ∧ Describes e.tuple p) ↔
      0 < s.networkHeader.toNat ∧ s.networkHeader.toNat + p.l3.size ≤ s.len.toNat ∧
        (s.networkHeader.toNat + p.l3.size) % 2 ^ 16 + p.l4.proto.size ≤ s.len.toNat := by
  have heq := setTuple_eq h.has
  constructor
  · rintro ⟨hret, -, -⟩
    rw [heq] at hret
    split_ifs at hret with hl3 hl4
    · exact ⟨hl3.1, hl3.2, hl4⟩
    · exact absurd hret (by simp)
    · exact absurd hret (by simp)
  · rintro ⟨hoff, hl3, hl4⟩
    have hL3 : s.L3In p := ⟨hoff, hl3⟩
    have hL4 : s.L4In p := hl4
    rw [if_pos hL3, if_pos hL4] at heq
    refine ⟨by rw [heq], by rw [heq]; exact ⟨rfl, rfl, rfl, rfl⟩, fun enableStack stackId location => ?_⟩
    have htaken : s.Taken p := ⟨hL3, hL4⟩
    rw [kfreeSkb_eq h.has, if_pos htaken]
    exact ⟨_, rfl, rfl, rfl, rfl, rfl⟩

def acknowledgement : Packet where
  l3 := .v4 0 [0, 0, 40, 0, 1, 0x40, 0, 64] [0, 0] [10, 0, 0, 1] [10, 0, 0, 2] [] rfl rfl rfl rfl rfl
  l4 := ⟨.tcp, 80, 40000, [0, 0, 0, 1, 0, 0, 0, 1, 0x50, 0x10, 0, 64, 0, 0, 0, 0], rfl⟩

def behind (headroom : UInt16) (dataLen : Nat) : Skb where
  mem i := acknowledgement.headers.getD (i - headroom.toNat) 0
  networkHeader := headroom
  len := UInt32.ofNat (40 + dataLen)
  tail := headroom.toNat + 40
  dataLen := dataLen

/-- With 1400 bytes of data in fragments the headers are found behind 78 bytes of headroom. -/
theorem a_packet_is_reported_large :
    ∃ e, kfreeSkb false 0 (some (behind 78 1400)) 0xffff = some e ∧ Describes e.tuple acknowledgement :=
  ((a_packet_is_reported_iff ⟨by decide, by decide, by decide⟩).mpr (by decide)).2.2 false 0 0xffff

/-- Without data the same packet behind the same headroom is not. -/
theorem a_bare_acknowledgement_is_not_reported :
    Carries (behind 78 0) acknowledgement ∧ setTuple (behind 78 0) .zero = (-1, .zero) ∧
      kfreeSkb false 0 (some (behind 78 0)) 0xffff = none := by
  refine ⟨⟨by decide, by decide, by decide⟩, by decide, by decide⟩

/-! ## The counters -/

@[ext] structure CacheKey where
  protocol : UInt8
  src : String
  dst : String
  deriving DecidableEq, Repr

structure Counter where
  lastUpdate : Int
  snatched : Bool
  total : UInt32
  netfilter : UInt32
  deriving DecidableEq, Repr

abbrev Cache := AList fun _ : CacheKey => Counter

def toProbeTuple (addrStr : UInt16 → List UInt8 → String) (t : Tuple) : ProbeTuple :=
  ⟨t.l4Proto, addrStr t.l3Proto t.saddr, addrStr t.l3Proto t.daddr, t.sport, t.dport⟩

/-- The tuple a scrape makes its labels from has no ports. -/
def CacheKey.tuple (key : CacheKey) : ProbeTuple := ⟨key.protocol, key.src, key.dst, 0, 0⟩

/-- A counter that was scraped and then left alone for 30 s. -/
def Counter.old (now : Int) (c : Counter) : Bool := 30000000000 < now - c.lastUpdate && c.snatched

/-- The two samples of a key. An old counter is emitted once more, as zero. -/
def emitCounter {L : Type} (labels : L) (now : Int) (c : Counter) : List (Sample L) :=
  [⟨"total", labels, if c.old now then 0 else c.total.toNat⟩,
    ⟨"netfilter", labels, if c.old now then 0 else c.netfilter.toNat⟩]

section Scrape

variable {L : Type} (labels : CacheKey → L) (now : CacheKey → Int)

def collectKeys : List CacheKey → Cache → List (Sample L) × Cache
  | [], cache => ([], cache)
  | key :: keys, cache =>
    match cache.lookup key with
    | none => collectKeys keys cache
    | some counter =>
      let cache' := if counter.old (now key) then cache.erase key else cache.insert key { counter with snatched := true }
      let (samples, cache'') := collectKeys keys cache'
      (emitCounter (labels key) (now key) counter ++ samples, cache'')

def collectOnce (cache : Cache) : List (Sample L) × Cache := collectKeys labels now cache.keys cache

/-- A turn of the loop leaves the keys to come as they were, so each is emitted as the scrape
    found it. -/
theorem collectKeys_samples {keys : List CacheKey} (hkeys : keys.Nodup) {cache found : Cache}
    (hfound : ∀ key ∈ keys, cache.lookup key = found.lookup key) :
    (collectKeys labels now keys cache).1 =
      keys.flatMap fun key => ((found.lookup key).map (emitCounter (labels key) (now key))).getD [] := by
  induction keys generalizing cache with
  | nil => rfl
  | cons key keys ih =>
    obtain ⟨hnew, hkeys⟩ := List.nodup_cons.mp hkeys
    have hkey := hfound key (by simp)
    have hrest : ∀ k ∈ keys, cache.lookup k = found.lookup k := fun k hk => hfound k (by simp [hk])
    have hne : ∀ k ∈ keys, k ≠ key := fun k hk hkk => hnew (hkk ▸ hk)
    rw [collectKeys, List.flatMap_cons, ← hkey]
    cases hl : cache.lookup key with
    | none => exact ih hkeys hrest
    | some counter =>
      refine congrArg (emitCounter (labels key) (now key) counter ++ ·) (ih hkeys fun k hk => ?_)
      split
      · rw [AList.lookup_erase_ne (hne k hk), hrest k hk]
      · rw [AList.lookup_insert_ne (hne k hk), hrest k hk]

theorem collectOnce_samples (cache : Cache) :
    ∃ total netfilter : CacheKey → Nat, (collectOnce labels now cache).1 =
      cache.keys.flatMap fun key => [⟨"total", labels key, total key⟩, ⟨"netfilter", labels key, netfilter key⟩] := by
  let counter (key : CacheKey) : Counter := (cache.lookup key).getD ⟨0, false, 0, 0⟩
  refine ⟨fun key => if (counter key).old (now key) then 0 else (counter key).total.toNat,
    fun key => if (counter key).old (now key) then 0 else (counter key).netfilter.toNat, ?_⟩
  refine (collectKeys_samples labels now cache.keys_nodup fun key _ => rfl).trans (List.flatMap_congr fun key hkey => ?_)
  obtain ⟨c, hc⟩ := Option.isSome_iff_exists.mp (AList.lookup_isSome.mpr (AList.mem_keys.mp hkey))
  simp only [counter, hc, Option.map_some, Option.getD_some, emitCounter]

end Scrape

end EliteTelemetry.Probes.PacketLoss
