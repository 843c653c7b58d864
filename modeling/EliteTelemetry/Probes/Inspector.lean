/-
  EliteTelemetry.Probes.Inspector — what the probes read of a packet or a socket
  (`bpf/headers/inspector.h`).

  `setFlowTuple4` reads a frame at a tc hook, `setTuple` an skb in the kernel by way of its
  header offsets, `setTupleSock` a socket. `Packet` is what there is to read: an IPv4 or
  IPv6 header and a TCP or UDP header, as bytes on the wire. `setTuple_eq` says what
  `setTuple` makes of an skb whose memory has such a packet at its network header.

  The host is little-endian.
-/

import EliteTelemetry.Lib.ByteOrder
import Mathlib.Tactic.SplitIfs

namespace EliteTelemetry.Probes.Inspector

open EliteTelemetry.Lib.ByteOrder

def ethPIp : UInt16 := 0x0800

def ethPIpv6 : UInt16 := 0x86dd

def pfInet6 : UInt16 := 10

def ipprotoTcp : UInt8 := 6

def ipprotoUdp : UInt8 := 17

def ethhdrSize : Nat := 14

def iphdrSize : Nat := 20

def ipv6hdrSize : Nat := 40

def tcphdrSize : Nat := 20

def udphdrSize : Nat := 8

/-! ## Packets on the wire -/

inductive L4 where
  | tcp
  | udp
  deriving DecidableEq, Repr

def L4.number : L4 → UInt8
  | .tcp => ipprotoTcp
  | .udp => ipprotoUdp

def L4.size : L4 → Nat
  | .tcp => tcphdrSize
  | .udp => udphdrSize

structure L4Header where
  proto : L4
  sport : UInt16
  dport : UInt16
  rest : List UInt8
  rest_length : 4 + rest.length = proto.size

def L4Header.bytes (h : L4Header) : List UInt8 := netBytes16 h.sport ++ (netBytes16 h.dport ++ h.rest)

/-- An IP header but for the number of what follows it. The first byte has the version and,
    for IPv4, the header's length in words of four bytes: five and the options. -/
inductive L3Header where
  | v4 (words : Fin 11) (front checksum src dst options : List UInt8) (hfront : front.length = 8)
      (hchecksum : checksum.length = 2) (hsrc : src.length = 4) (hdst : dst.length = 4)
      (hoptions : options.length = 4 * words.val)
  | v6 (trafficClass : Fin 16) (front : List UInt8) (hopLimit : UInt8) (src dst : List UInt8)
      (hfront : front.length = 5) (hsrc : src.length = 16) (hdst : dst.length = 16)

namespace L3Header

def bytes (next : UInt8) : L3Header → List UInt8
  | v4 words front checksum src dst options .. =>
    UInt8.ofNat (0x45 + words.val) :: (front ++ (next :: (checksum ++ (src ++ (dst ++ options)))))
  | v6 trafficClass front hopLimit src dst .. =>
    UInt8.ofNat (0x60 + trafficClass.val) :: (front ++ (next :: hopLimit :: (src ++ dst)))

def size : L3Header → Nat
  | v4 words .. => (5 + words.val) * 4
  | v6 .. => ipv6hdrSize

def proto : L3Header → UInt16
  | v4 .. => ethPIp
  | v6 .. => ethPIpv6

/-- The addresses as a `union addr` has them: an IPv4 address in the first four bytes. -/
def saddr : L3Header → List UInt8
  | v4 _ _ _ src .. => src ++ List.replicate 12 0
  | v6 _ _ _ src .. => src

def daddr : L3Header → List UInt8
  | v4 _ _ _ _ dst .. => dst ++ List.replicate 12 0
  | v6 _ _ _ _ dst .. => dst

theorem bytes_length (next : UInt8) (h : L3Header) : (h.bytes next).length = h.size := by
  cases h with
  | v4 words front checksum src dst options hfront hchecksum hsrc hdst hoptions =>
    simp only [bytes, size, List.length_cons, List.length_append]
    omega
  | v6 trafficClass front hopLimit src dst hfront hsrc hdst =>
    simp only [bytes, size, ipv6hdrSize, List.length_cons, List.length_append]
    omega

theorem v4_first (words : Fin 11) :
    UInt8.ofNat (0x45 + words.val) >>> 4 = 4 ∧ (UInt8.ofNat (0x45 + words.val) &&& 0x0f).toNat = 5 + words.val := by
  revert words
  decide

theorem v6_first (trafficClass : Fin 16) : UInt8.ofNat (0x60 + trafficClass.val) >>> 4 = 6 := by
  revert trafficClass
  decide

end L3Header

theorem L4Header.ports_of_holds {m : Nat → UInt8} {off : Nat} {h : L4Header} (hm : Holds m off h.bytes) :
    netValue16 m off = h.sport ∧ netValue16 m (off + 2) = h.dport := by
  obtain ⟨hsport, hrest⟩ := (holds_append _ _ _ _).mp hm
  obtain ⟨hdport, -⟩ := (holds_append _ _ _ _).mp hrest
  exact ⟨netValue16_of_holds hsport, netValue16_of_holds hdport⟩

structure Packet where
  l3 : L3Header
  l4 : L4Header

def Packet.headers (p : Packet) : List UInt8 := p.l3.bytes p.l4.proto.number ++ p.l4.bytes

theorem Packet.ports_of_holds {m : Nat → UInt8} {off : Nat} {p : Packet} (h : Holds m off p.headers) :
    netValue16 m (off + p.l3.size) = p.l4.sport ∧ netValue16 m (off + p.l3.size + 2) = p.l4.dport := by
  have hl4 := ((holds_append _ _ _ _).mp h).2
  rw [L3Header.bytes_length] at hl4
  exact L4Header.ports_of_holds hl4

/-! ## Frames at a tc hook -/

/-- The `__sk_buff` of a frame, from its Ethernet header on. The first `linear` bytes lie
    between `data` and `data_end`; the others, if any, are in fragments. -/
structure Frame where
  bytes : List UInt8
  linear : Nat
  linear_le : linear ≤ bytes.length
  length_lt : bytes.length < 2 ^ 32

namespace Frame

variable (f : Frame)

def byte (i : Nat) : UInt8 := f.bytes.getD i 0

def len : Nat := f.bytes.length

def etherType : UInt16 := netValue16 f.byte 12

def protocol : UInt8 := f.byte (ethhdrSize + 9)

def saddr : UInt32 := load32 f.byte (ethhdrSize + 12)

def daddr : UInt32 := load32 f.byte (ethhdrSize + 16)

def l4Off : Nat := ethhdrSize + (f.byte ethhdrSize &&& 0x0f).toNat * 4

end Frame

@[ext] structure FlowTuple4 where
  proto : UInt8
  src : UInt32
  dst : UInt32
  sport : UInt16
  dport : UInt16
  deriving DecidableEq, Repr

def FlowTuple4.zero : FlowTuple4 := ⟨0, 0, 0, 0, 0⟩

def setFlowTuple4 (skb : Frame) (port : Bool) : Option FlowTuple4 :=
  if skb.linear < ethhdrSize then none
  else if load16 skb.byte 12 = swap16 ethPIp then
    if skb.linear < ethhdrSize + iphdrSize then none
    else
      let tuple : FlowTuple4 := ⟨skb.protocol, skb.saddr, skb.daddr, 0, 0⟩
      if !port then some tuple
      else if skb.protocol = ipprotoTcp then
        if skb.linear < skb.l4Off + tcphdrSize then none
        else some { tuple with sport := load16 skb.byte skb.l4Off, dport := load16 skb.byte (skb.l4Off + 2) }
      else if skb.protocol = ipprotoUdp then
        if skb.linear < skb.l4Off + udphdrSize then none
        else some { tuple with sport := load16 skb.byte skb.l4Off, dport := load16 skb.byte (skb.l4Off + 2) }
      else some tuple
  -- IPv6 is not supported yet, and every other EtherType comes here too
  else some .zero

/-! ### Without the ports -/

structure FlowKey where
  proto : UInt8
  src : UInt32
  dst : UInt32
  deriving DecidableEq, Repr

def FlowTuple4.flowKey (k : FlowTuple4) : FlowKey := ⟨k.proto, k.src, k.dst⟩

def FlowKey.tuple (k : FlowKey) : FlowTuple4 := ⟨k.proto, k.src, k.dst, 0, 0⟩

def Frame.flowKey (f : Frame) : FlowKey := ⟨f.protocol, f.saddr, f.daddr⟩

def Frame.IPv4 (f : Frame) : Prop := f.etherType = ethPIp ∧ ethhdrSize + iphdrSize ≤ f.len

instance (f : Frame) : Decidable f.IPv4 := inferInstanceAs (Decidable (_ ∧ _))

theorem setFlowTuple4_noPorts (f : Frame) :
    setFlowTuple4 f false =
      if f.linear < ethhdrSize then none
      else if f.etherType = ethPIp then
        if f.linear < ethhdrSize + iphdrSize then none else some f.flowKey.tuple
      else some .zero := by
  unfold setFlowTuple4 Frame.etherType
  simp only [load16_eq_swap16_iff, Bool.not_false, if_true]
  rfl

theorem setFlowTuple4_flowKey {f : Frame} {k : FlowTuple4} (h : setFlowTuple4 f false = some k) :
    k.flowKey.tuple = k := by
  rw [setFlowTuple4_noPorts] at h
  split_ifs at h
  · obtain rfl := Option.some_inj.mp h
    rfl
  · obtain rfl := Option.some_inj.mp h
    rfl

theorem FlowKey.tuple_inj {j k : FlowKey} : j.tuple = k.tuple ↔ j = k := by
  constructor
  · intro h
    exact congrArg FlowTuple4.flowKey h
  · intro h
    rw [h]

theorem setFlowTuple4_of_ipv4 {f : Frame} (h : f.IPv4) :
    setFlowTuple4 f false = if ethhdrSize + iphdrSize ≤ f.linear then some f.flowKey.tuple else none := by
  rw [setFlowTuple4_noPorts, if_pos h.1]
  by_cases hl : ethhdrSize + iphdrSize ≤ f.linear
  · rw [if_neg (by omega), if_neg (by omega), if_pos hl]
  · rw [if_neg hl, if_pos (by omega : f.linear < ethhdrSize + iphdrSize), ite_self]

/-! ### With the ports -/

/-- The frame has the headers of a packet behind its Ethernet header. -/
def Frame.Has (f : Frame) (p : Packet) : Prop := f.etherType = p.l3.proto ∧ Holds f.byte ethhdrSize p.headers

instance (f : Frame) (p : Packet) : Decidable (f.Has p) := inferInstanceAs (Decidable (_ ∧ _))

/-- What the IPv4 header of a frame says: where the ports are, and whose they are. -/
theorem Frame.Has.header_of_v4 {f : Frame} {p : Packet} (h : f.Has p) (h4 : p.l3.proto = ethPIp) :
    f.l4Off = ethhdrSize + p.l3.size ∧ f.protocol = p.l4.proto.number ∧ iphdrSize ≤ p.l3.size := by
  have hl3 := ((holds_append _ _ _ _).mp h.2).1
  cases hp : p.l3 with
  | v4 words front checksum src dst options hfront hchecksum hsrc hdst hoptions =>
    rw [hp] at hl3
    simp only [L3Header.bytes, holds_cons, holds_append, hfront, Nat.add_assoc] at hl3
    obtain ⟨hfirst, -, hnext, -⟩ := hl3
    refine ⟨?_, hnext, ?_⟩
    · rw [Frame.l4Off, hfirst, (L3Header.v4_first words).2]
      rfl
    · show 20 ≤ (5 + words.val) * 4
      omega
  | v6 =>
    rw [hp] at h4
    exact absurd (show ethPIpv6 = ethPIp from h4) (by decide)

/-- The ports of an IPv4 frame, where all its headers are in the linear part: as the host
    loads them. -/
theorem setFlowTuple4_of_v4 {f : Frame} {p : Packet} (h : f.Has p) (h4 : p.l3.proto = ethPIp) :
    setFlowTuple4 f true =
      if f.linear < ethhdrSize + p.l3.size + p.l4.proto.size then none
      else some ⟨p.l4.proto.number, f.saddr, f.daddr, swap16 p.l4.sport, swap16 p.l4.dport⟩ := by
  have hip : load16 f.byte 12 = swap16 ethPIp := (load16_eq_swap16_iff _ _ _).mpr (h.1.trans h4)
  obtain ⟨hsport, hdport⟩ := Packet.ports_of_holds h.2
  obtain ⟨hoff, hproto, hsize⟩ := h.header_of_v4 h4
  have hbranch : setFlowTuple4 f true =
      if f.linear < ethhdrSize then none
      else if f.linear < ethhdrSize + iphdrSize then none
      else if f.linear < ethhdrSize + p.l3.size + p.l4.proto.size then none
      else some ⟨p.l4.proto.number, f.saddr, f.daddr, swap16 p.l4.sport, swap16 p.l4.dport⟩ := by
    unfold setFlowTuple4
    rw [if_pos hip, hproto, hoff, load16_eq, load16_eq, hsport, hdport]
    cases p.l4.proto <;> rfl
  rw [hbranch]
  by_cases hin : f.linear < ethhdrSize + p.l3.size + p.l4.proto.size
  · rw [if_pos hin, ite_self, ite_self]
  · rw [if_neg (by omega : ¬f.linear < ethhdrSize), if_neg (by omega : ¬f.linear < ethhdrSize + iphdrSize)]

/-! ## An skb in the kernel -/

/-- The parts of a `struct sk_buff` that `set_tuple` reads, with the kernel's memory from
    `skb->head` on. The linear area ends at `tail`; `dataLen` more bytes are in fragments. -/
structure Skb where
  mem : Nat → UInt8
  networkHeader : UInt16
  len : UInt32
  tail : Nat
  dataLen : Nat

structure Tuple where
  saddr : List UInt8
  daddr : List UInt8
  sport : UInt16
  dport : UInt16
  l3Proto : UInt16
  l4Proto : UInt8
  deriving DecidableEq, Repr

def Tuple.zero : Tuple := ⟨List.replicate 16 0, List.replicate 16 0, 0, 0, 0, 0⟩

def readV4 (skb : Skb) (off : Nat) (addr : List UInt8) : List UInt8 := read skb.mem off 4 ++ addr.drop 4

def htonsPorts (tpl : Tuple) : Tuple := { tpl with sport := swap16 tpl.sport, dport := swap16 tpl.dport }

def readPorts (skb : Skb) (l4Off : Nat) (tpl : Tuple) : Tuple :=
  { tpl with sport := load16 skb.mem l4Off, dport := load16 skb.mem (l4Off + 2) }

def setTupleL4 (skb : Skb) (l4Off : Nat) (tpl : Tuple) : Int × Tuple :=
  if skb.len.toNat ≤ l4Off then (-1, tpl)
  else if tpl.l4Proto = ipprotoTcp then
    if skb.len.toNat < l4Off + tcphdrSize then (-1, tpl) else (0, htonsPorts (readPorts skb l4Off tpl))
  else if tpl.l4Proto = ipprotoUdp then
    if skb.len.toNat < l4Off + udphdrSize then (-1, tpl) else (0, htonsPorts (readPorts skb l4Off tpl))
  else (0, htonsPorts tpl)

/-- `set_tuple`: what it returns and what it leaves in the tuple. -/
def setTuple (skb : Skb) (tpl : Tuple) : Int × Tuple :=
  let l3Off := skb.networkHeader.toNat
  if l3Off = 0 ∨ skb.len.toNat ≤ l3Off then (-1, tpl)
  else
    let first := skb.mem l3Off
    let ihl := (first &&& 0x0f).toNat
    if first >>> 4 = 4 then
      if ihl < 5 ∨ 15 < ihl then (-1, tpl)
      else if skb.len.toNat < l3Off + ihl * 4 then (-1, tpl)
      else
        -- `l4_off` is a u16
        setTupleL4 skb ((l3Off + ihl * 4) % 2 ^ 16)
          { tpl with
            saddr := readV4 skb (l3Off + 12) tpl.saddr
            daddr := readV4 skb (l3Off + 16) tpl.daddr
            l4Proto := skb.mem (l3Off + 9)
            l3Proto := ethPIp }
    else if first >>> 4 = 6 then
      if skb.len.toNat < l3Off + ipv6hdrSize then (-1, tpl)
      else
        setTupleL4 skb ((l3Off + ipv6hdrSize) % 2 ^ 16)
          { tpl with
            saddr := read skb.mem (l3Off + 8) 16
            daddr := read skb.mem (l3Off + 24) 16
            l4Proto := skb.mem (l3Off + 6)
            l3Proto := ethPIpv6 }
    else (-1, tpl)

/-! ### What `set_tuple` makes of a packet -/

/-- The tuple of a packet, with ports that are not necessarily its own. -/
def Packet.tuple (p : Packet) (sport dport : UInt16) : Tuple :=
  ⟨p.l3.saddr, p.l3.daddr, sport, dport, p.l3.proto, p.l4.proto.number⟩

namespace Skb

variable (s : Skb) (p : Packet)

/-- The memory at the network header is a packet's headers. -/
def Has : Prop := Holds s.mem s.networkHeader.toNat p.headers

/-- The IP header, its offset from `skb->head` included, is within `skb->len`. -/
def L3In : Prop := 0 < s.networkHeader.toNat ∧ s.networkHeader.toNat + p.l3.size ≤ s.len.toNat

def l4Off : Nat := (s.networkHeader.toNat + p.l3.size) % 2 ^ 16

def L4In : Prop := s.l4Off p + p.l4.proto.size ≤ s.len.toNat

/-- `set_tuple` takes the packet. -/
def Taken : Prop := s.L3In p ∧ s.L4In p

instance : Decidable (s.Has p) := inferInstanceAs (Decidable (Holds _ _ _))

instance : Decidable (s.L3In p) := inferInstanceAs (Decidable (_ ∧ _))

instance : Decidable (s.L4In p) := inferInstanceAs (Decidable (_ ≤ _))

instance : Decidable (s.Taken p) := inferInstanceAs (Decidable (_ ∧ _))

end Skb

theorem setTupleL4_eq (s : Skb) (off : Nat) (tpl : Tuple) (k : L4) (h : tpl.l4Proto = k.number) :
    setTupleL4 s off tpl =
      if off + k.size ≤ s.len.toNat then
        (0, { tpl with sport := netValue16 s.mem off, dport := netValue16 s.mem (off + 2) })
      else (-1, tpl) := by
  have hports : htonsPorts (readPorts s off tpl) =
      { tpl with sport := netValue16 s.mem off, dport := netValue16 s.mem (off + 2) } := by
    rw [← swap16_load16, ← swap16_load16]
    rfl
  have hsize : 0 < k.size := by cases k <;> decide
  have hbranch : setTupleL4 s off tpl =
      if s.len.toNat ≤ off then (-1, tpl)
      else if s.len.toNat < off + k.size then (-1, tpl) else (0, htonsPorts (readPorts s off tpl)) := by
    unfold setTupleL4
    cases k with
    | tcp =>
      have htcp : tpl.l4Proto = ipprotoTcp := h
      rw [if_pos htcp]
      rfl
    | udp =>
      have hudp : tpl.l4Proto = ipprotoUdp := h
      have htcp : tpl.l4Proto ≠ ipprotoTcp := by
        rw [hudp]
        decide
      rw [if_neg htcp, if_pos hudp]
      rfl
  rw [hbranch, hports]
  by_cases hin : off + k.size ≤ s.len.toNat
  · rw [if_neg (by omega), if_neg (by omega), if_pos hin]
  · rw [if_neg hin, if_pos (Nat.lt_of_not_le hin), ite_self]

theorem readV4_of_holds {s : Skb} {off : Nat} {addr : List UInt8} (h : Holds s.mem off addr) (hlen : addr.length = 4) :
    readV4 s off Tuple.zero.saddr = addr ++ List.replicate 12 0 := by
  rw [readV4, ← hlen, read_of_holds h, hlen]
  rfl

/-- `set_tuple` once it has found an IP header of a packet's size with the packet's fields. -/
theorem setTupleL4_of_packet {s : Skb} {p : Packet} (hl3 : 0 < s.networkHeader.toNat) :
    (if s.len.toNat < s.networkHeader.toNat + p.l3.size then (-1, Tuple.zero)
      else setTupleL4 s (s.l4Off p) (p.tuple 0 0)) =
      if s.L3In p then
        if s.L4In p then (0, p.tuple (netValue16 s.mem (s.l4Off p)) (netValue16 s.mem (s.l4Off p + 2)))
        else (-1, p.tuple 0 0)
      else (-1, .zero) := by
  rw [setTupleL4_eq s _ _ p.l4.proto rfl]
  by_cases hin : s.networkHeader.toNat + p.l3.size ≤ s.len.toNat
  · have hL3 : s.L3In p := ⟨hl3, hin⟩
    rw [if_neg (Nat.not_lt.mpr hin), if_pos hL3]
    rfl
  · have hL3 : ¬s.L3In p := fun h => hin h.2
    rw [if_pos (Nat.lt_of_not_le hin), if_neg hL3]

theorem setTuple_eq {s : Skb} {p : Packet} (h : s.Has p) :
    setTuple s .zero =
      if s.L3In p then
        if s.L4In p then (0, p.tuple (netValue16 s.mem (s.l4Off p)) (netValue16 s.mem (s.l4Off p + 2)))
        else (-1, p.tuple 0 0)
      else (-1, .zero) := by
  have hbytes := ((holds_append _ _ _ _).mp h).1
  unfold setTuple
  dsimp only
  by_cases hoff : s.networkHeader.toNat = 0 ∨ s.len.toNat ≤ s.networkHeader.toNat
  · have hsize : 0 < p.l3.size := by
      rw [← L3Header.bytes_length p.l4.proto.number]
      cases p.l3 <;> exact Nat.succ_pos _
    have hout : ¬s.L3In p := by
      intro hin
      have h0 := hin.1
      have h1 := hin.2
      omega
    rw [if_pos hoff, if_neg hout]
  · rw [if_neg hoff, ← setTupleL4_of_packet (by omega)]
    unfold Skb.l4Off Packet.tuple
    cases hp : p.l3 with
    | v4 words front checksum src dst options hfront hchecksum hsrc hdst hoptions =>
      rw [hp] at hbytes
      simp only [L3Header.bytes, holds_cons, holds_append, hfront, hchecksum, hsrc, Nat.add_assoc] at hbytes
      obtain ⟨hfirst, -, hnext, -, hs, hd, -⟩ := hbytes
      obtain ⟨hversion, hihl⟩ := L3Header.v4_first words
      have hd : readV4 s (s.networkHeader.toNat + 16) Tuple.zero.daddr = dst ++ List.replicate 12 0 :=
        readV4_of_holds hd hdst
      rw [hfirst, if_pos hversion, hihl, if_neg (by omega), readV4_of_holds hs hsrc, hd, hnext]
      rfl
    | v6 trafficClass front hopLimit src dst hfront hsrc hdst =>
      rw [hp] at hbytes
      simp only [L3Header.bytes, holds_cons, holds_append, hfront, hsrc, Nat.add_assoc] at hbytes
      obtain ⟨hfirst, -, hnext, -, hs, hd⟩ := hbytes
      have hversion := L3Header.v6_first trafficClass
      have hs := read_of_holds hs
      have hd := read_of_holds hd
      rw [hsrc] at hs
      rw [hdst] at hd
      rw [hfirst, if_neg (by rw [hversion]; decide), if_pos hversion, hnext, hs, hd]
      rfl

/-! ## Sockets -/

/-- The parts of a `struct sock` that `set_tuple_sock` reads. `dport` is `skc_dport` as the
    host loads it; the port is in network order. -/
structure Sock where
  family : UInt16
  rcvSaddr : List UInt8
  daddr : List UInt8
  v6RcvSaddr : List UInt8
  v6Daddr : List UInt8
  num : UInt16
  dport : UInt16
  protocol : UInt16

def setTupleSock (sk : Sock) (tpl : Tuple) : Tuple :=
  if sk.family = pfInet6 then
    { tpl with
      saddr := sk.v6RcvSaddr
      daddr := sk.v6Daddr
      l3Proto := ethPIpv6
      sport := sk.num
      dport := sk.dport
      l4Proto := UInt8.ofNat sk.protocol.toNat }
  else
    { tpl with
      saddr := sk.rcvSaddr ++ tpl.saddr.drop 4
      daddr := sk.daddr ++ tpl.daddr.drop 4
      l3Proto := ethPIp
      sport := sk.num
      dport := sk.dport
      l4Proto := UInt8.ofNat sk.protocol.toNat }

end EliteTelemetry.Probes.Inspector
