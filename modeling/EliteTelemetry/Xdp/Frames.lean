/-
  EliteTelemetry.Xdp.Frames — which frames the XDP program takes ports and flags from
  (`parse_ipv4_tcp` of `bpf/xdp_mitigator.c`).

  The parser compares the end of each header with the end of the frame before it reads it, so
  it reads nothing beyond (`parse_in_bounds`). What it takes for the headers of a TCP segment
  is what stands behind an IPv4 header with protocol 6. It does not look at the fragment
  offset, so in a later fragment that is data (`a_later_fragment_is_taken_for_a_syn`), nor at
  the length of the packet, so behind a short one it is what fills the frame.

  The headers are those of the packet exactly if the packet's fragment offset is 0 and it is
  long enough for both headers (`parsed_headers_iff`).
-/

import EliteTelemetry.Lib.LittleEndian
import EliteTelemetry.Lib.Packet
import EliteTelemetry.Xdp.Accounting
import Mathlib.Data.Nat.Bitwise

namespace EliteTelemetry.Xdp

open EliteTelemetry.Lib EliteTelemetry.Lib.Packet

/-! ## Loads -/

variable {frame : List UInt8}

theorem load8_of_lt {off : Nat} (h : off < frame.length) : load8 frame off = .ok (frame.getD off 0) := by
  simp [load8, h]

theorem or_shift {lo k : Nat} (h : lo < 2 ^ k) (hi : Nat) : lo ||| hi * 2 ^ k = lo + hi * 2 ^ k := by
  rw [Nat.or_comm, Nat.mul_comm hi, ← Nat.two_pow_add_eq_or_of_lt h, Nat.add_comm]

theorem be16_toNat (hi lo : UInt8) : (hi.toUInt16 <<< 8 ||| lo.toUInt16).toNat = 256 * hi.toNat + lo.toNat := by
  have hhi := hi.toNat_lt
  rw [UInt16.toNat_or, UInt16.toNat_shiftLeft, UInt8.toNat_toUInt16, UInt8.toNat_toUInt16, Nat.shiftLeft_eq]
  show hi.toNat * 2 ^ 8 % 2 ^ 16 ||| lo.toNat = _
  rw [Nat.mod_eq_of_lt (by omega), Nat.or_comm, or_shift lo.toNat_lt]
  omega

theorem le32_toNat (b0 b1 b2 b3 : UInt8) :
    (b0.toUInt32 ||| b1.toUInt32 <<< 8 ||| b2.toUInt32 <<< 16 ||| b3.toUInt32 <<< 24).toNat =
      LittleEndian.value [b0, b1, b2, b3] := by
  have h0 := b0.toNat_lt
  have h1 := b1.toNat_lt
  have h2 := b2.toNat_lt
  have hshift : ∀ (b : UInt8) (k : Nat) (s : UInt32), s.toNat % 32 = k → k ≤ 24 →
      (b.toUInt32 <<< s).toNat = b.toNat * 2 ^ k := by
    intro b k s hs hk
    have hb : b.toNat * 2 ^ k < 2 ^ 8 * 2 ^ 24 :=
      Nat.mul_lt_mul_of_lt_of_le b.toNat_lt (Nat.pow_le_pow_right (by decide) hk) (Nat.two_pow_pos 24)
    rw [UInt32.toNat_shiftLeft, UInt8.toNat_toUInt32, hs, Nat.shiftLeft_eq]
    exact Nat.mod_eq_of_lt hb
  have h01 := or_shift h0 b1.toNat
  have h012 := or_shift (show b0.toNat + b1.toNat * 2 ^ 8 < 2 ^ 16 by omega) b2.toNat
  have h0123 := or_shift (show b0.toNat + b1.toNat * 2 ^ 8 + b2.toNat * 2 ^ 16 < 2 ^ 24 by omega) b3.toNat
  rw [UInt32.toNat_or, UInt32.toNat_or, UInt32.toNat_or, hshift b1 8 8 rfl (by decide),
    hshift b2 16 16 rfl (by decide), hshift b3 24 24 rfl (by decide), UInt8.toNat_toUInt32, h01, h012, h0123]
  simp only [LittleEndian.value]
  omega

theorem loadBe16_of_lt {off : Nat} (h : off + 1 < frame.length) :
    loadBe16 frame off = .ok (UInt16.ofNat (be16 frame off)) := by
  have hlt := be16_lt frame off
  unfold loadBe16
  rw [load8_of_lt (by omega), load8_of_lt h]
  refine congrArg Except.ok (UInt16.toNat_inj.mp ?_)
  rw [be16_toNat, UInt16.toNat_ofNat', Nat.mod_eq_of_lt hlt]
  rfl

theorem loadLe32_of_lt {off : Nat} (h : off + 3 < frame.length) :
    loadLe32 frame off = .ok (UInt32.ofNat (LittleEndian.value ((frame.drop off).take 4))) := by
  have hfour : (frame.drop off).take 4 =
      [frame.getD off 0, frame.getD (off + 1) 0, frame.getD (off + 2) 0, frame.getD (off + 3) 0] := by
    refine List.ext_getElem (by simp; omega) fun i hi _ => ?_
    simp only [List.length_take, List.length_drop] at hi
    match i with
    | 0 | 1 | 2 | 3 => simp [h, show off < frame.length by omega, show off + 1 < frame.length by omega,
        show off + 2 < frame.length by omega]
    | i + 4 => omega
  unfold loadLe32
  rw [load8_of_lt (by omega), load8_of_lt (by omega), load8_of_lt (by omega), load8_of_lt h, hfour]
  refine congrArg Except.ok (UInt32.toNat_inj.mp ?_)
  rw [← le32_toNat, UInt32.ofNat_toNat]

/-! ## What the parser accepts -/

/-- An Ethernet frame for IPv4, a header with version 4 and protocol 6, and room for a TCP
    header behind it. -/
def Accepted (frame : List UInt8) : Prop :=
  be16 frame 12 = 0x0800 ∧ Ipv4.version (frame.drop 14) = 4 ∧ frame.getD 23 0 = ipprotoTcp ∧
    20 ≤ Ipv4.headerLength (frame.drop 14) ∧ 14 + Ipv4.headerLength (frame.drop 14) + 20 ≤ frame.length

instance (frame : List UInt8) : Decidable (Accepted frame) := inferInstanceAs (Decidable (_ ∧ _))

def headersOf (frame : List UInt8) : Headers :=
  let tcp := 14 + Ipv4.headerLength (frame.drop 14)
  { srcIp := .ofNat (LittleEndian.value ((frame.drop 26).take 4))
    dport := .ofNat (be16 frame (tcp + 2))
    tcpFlags := if frame.getD (tcp + 13) 0 &&& tcpFlagSyn ≠ 0 then tcpFlagSyn else 0 }

theorem version_iff (b : UInt8) : b >>> 4 = 4 ↔ b.toNat / 16 = 4 := by
  rw [← UInt8.toNat_inj, UInt8.toNat_shiftRight, Nat.shiftRight_eq_div_pow]
  rfl

theorem ihl_toNat (b : UInt8) : (b &&& 0x0f).toNat * 4 = 4 * (b.toNat % 16) := by
  rw [UInt8.toNat_and, show (0x0f : UInt8).toNat = 2 ^ 4 - 1 from rfl, Nat.and_two_pow_sub_one_eq_mod, Nat.mul_comm]

theorem parseIpv4Tcp_of_accepted (h : Accepted frame) : parseIpv4Tcp frame = .ok (headersOf frame) := by
  obtain ⟨hether, hversion, hprotocol, hheader, hlength⟩ := h
  have hfirst : (frame.drop 14).getD 0 0 = frame.getD 14 0 := getD_drop frame 14 0
  have hihl := ihl_toNat (frame.getD 14 0)
  rw [Ipv4.version, hfirst, ← version_iff] at hversion
  rw [Ipv4.headerLength, hfirst] at hheader hlength
  unfold parseIpv4Tcp headersOf Ipv4.headerLength ethHdrLen ipHdrLen tcpHdrLen
  rw [hfirst]
  generalize 4 * ((frame.getD 14 0).toNat % 16) = ihl at *
  rw [if_neg (by omega), loadBe16_of_lt (by omega)]
  simp only [bind, Except.bind, hether, if_neg (show ¬frame.length < 14 + 20 by omega)]
  rw [if_neg (by decide), load8_of_lt (by omega)]
  simp only [hversion, ne_eq, not_true_eq_false, if_false, load8_of_lt (show 14 + 9 < frame.length by omega),
    hprotocol, hihl, if_neg (show ¬ihl < 20 by omega), if_neg (show ¬frame.length < 14 + ihl + 20 by omega),
    loadLe32_of_lt (show 14 + 12 + 3 < frame.length by omega),
    loadBe16_of_lt (show 14 + ihl + 2 + 1 < frame.length by omega),
    load8_of_lt (show 14 + ihl + 13 < frame.length by omega)]
  rfl

/-- The parser answers for any other frame too, without a read beyond its end. -/
theorem parseIpv4Tcp_of_not_accepted (h : ¬Accepted frame) : parseIpv4Tcp frame = .error .rejected := by
  have hfirst : (frame.drop 14).getD 0 0 = frame.getD 14 0 := getD_drop frame 14 0
  have hihl := ihl_toNat (frame.getD 14 0)
  rw [Accepted, Ipv4.version, Ipv4.headerLength, hfirst, ← version_iff] at h
  unfold parseIpv4Tcp ethHdrLen ipHdrLen tcpHdrLen
  generalize 4 * ((frame.getD 14 0).toNat % 16) = ihl at *
  have hpast : ∀ {α : Type} (f : Unit → Except ParseErr α), (throw .rejected >>= f) = .error .rejected := fun _ => rfl
  by_cases heth : frame.length < 14
  · rw [if_pos heth, hpast]
  rw [if_neg heth, loadBe16_of_lt (by omega)]
  simp only [bind, Except.bind] at hpast ⊢
  by_cases hether : be16 frame 12 ≠ 0x0800
  · have hne : UInt16.ofNat (be16 frame 12) ≠ 0x0800 := by
      rw [ne_eq, ← UInt16.toNat_inj, UInt16.toNat_ofNat', Nat.mod_eq_of_lt (be16_lt frame 12)]
      exact hether
    rw [if_pos hne, hpast]
  rw [not_not] at hether
  simp only [hether, ne_eq]
  rw [if_neg (by decide)]
  by_cases hip : frame.length < 14 + 20
  · rw [if_pos hip, hpast]
  rw [if_neg hip, load8_of_lt (by omega)]
  simp only [load8_of_lt (show 14 + 9 < frame.length by omega), hihl]
  by_cases hversion : ¬frame.getD 14 0 >>> 4 = 4
  · rw [if_pos hversion, hpast]
  rw [if_neg hversion]
  by_cases hprotocol : ¬frame.getD 23 0 = ipprotoTcp
  · rw [if_pos hprotocol, hpast]
  rw [if_neg hprotocol]
  by_cases hheader : ihl < 20
  · rw [if_pos hheader, hpast]
  rw [if_neg hheader, if_pos, hpast]
  by_contra hlength
  exact h ⟨hether, not_not.mp hversion, not_not.mp hprotocol, by omega, by omega⟩

theorem parse_in_bounds (frame : List UInt8) (off : Nat) : parseIpv4Tcp frame ≠ .error (.outOfBounds off) := by
  by_cases hacc : Accepted frame
  · simp [parseIpv4Tcp_of_accepted hacc]
  · simp [parseIpv4Tcp_of_not_accepted hacc]

/-! ## Whose headers they are -/

/-- The headers are those of an IPv4 packet in the frame that carries the start of a TCP
    segment. -/
def OwnHeaders (frame : List UInt8) (h : Headers) : Prop :=
  ∃ ip tcp, be16 frame 12 = 0x0800 ∧ Ipv4.decode (frame.drop 14) = some ip ∧ ip.protocol = ipprotoTcp ∧
    ip.fragmentOffset = 0 ∧ Tcp.decode ip.payload = some tcp ∧ h.srcIp.toNat = LittleEndian.value ip.source ∧
    h.dport.toNat = tcp.destPort ∧ h.isSyn = tcp.syn

/-- The packet in the frame has a fragment offset of 0 and room for its own header and a TCP
    header. -/
def StartsSegment (frame : List UInt8) : Prop :=
  Ipv4.offsetField (frame.drop 14) = 0 ∧
    Ipv4.headerLength (frame.drop 14) + 20 ≤ Ipv4.totalLength (frame.drop 14)

instance (frame : List UInt8) : Decidable (StartsSegment frame) := inferInstanceAs (Decidable (_ ∧ _))

theorem isSyn_headersOf (frame : List UInt8) :
    (headersOf frame).isSyn =
      (frame.getD (14 + Ipv4.headerLength (frame.drop 14) + 13) 0).toNat.testBit 1 := by
  generalize hb : frame.getD (14 + Ipv4.headerLength (frame.drop 14) + 13) 0 = b
  have hbit : b &&& tcpFlagSyn ≠ 0 ↔ b.toNat.testBit 1 = true := by
    rw [ne_eq, ← UInt8.toNat_inj, UInt8.toNat_and, show tcpFlagSyn.toNat = 2 ^ 1 from rfl, Nat.and_two_pow]
    cases b.toNat.testBit 1 <;> simp
  unfold headersOf Headers.isSyn
  simp only [hb]
  by_cases hsyn : b &&& tcpFlagSyn ≠ 0
  · rw [if_pos hsyn, hbit.mp hsyn]
    rfl
  · rw [if_neg hsyn]
    rw [hbit, Bool.not_eq_true] at hsyn
    rw [hsyn]
    rfl

/-- The headers of a frame that is accepted are its packet's own where that begins a segment. -/
theorem ownHeaders_iff (h : Accepted frame) : OwnHeaders frame (headersOf frame) ↔ StartsSegment frame := by
  obtain ⟨hether, hversion, hprotocol, hheader, hlength⟩ := h
  have hlen : Ipv4.headerLength (frame.drop 14) + 20 ≤ (frame.drop 14).length := by
    rw [List.length_drop]
    omega
  have hpayload := Tcp.decode_payload hlen (Ipv4.totalLength (frame.drop 14))
  unfold OwnHeaders StartsSegment
  constructor
  · intro ⟨ip, tcp, _, hip, _, hoffset, htcp, _⟩
    unfold Ipv4.decode at hip
    split at hip
    · obtain rfl := Option.some.inj hip
      refine ⟨hoffset, ?_⟩
      rw [hpayload] at htcp
      by_contra hshort
      rw [if_neg hshort] at htcp
      exact absurd htcp (by simp)
    · exact absurd hip (by simp)
  · intro ⟨hoffset, htotal⟩
    rw [if_pos htotal] at hpayload
    refine ⟨_, _, hether, if_pos ⟨by omega, hversion, hheader, by omega⟩, ?_, hoffset, hpayload, ?_, ?_, ?_⟩
    · show (frame.drop 14).getD 9 0 = ipprotoTcp
      rw [getD_drop]
      exact hprotocol
    · show (UInt32.ofNat (LittleEndian.value ((frame.drop 26).take 4))).toNat = _
      have hlt : LittleEndian.value ((frame.drop 26).take 4) < 256 ^ 4 := LittleEndian.value_lt (List.length_take_le ..)
      rw [UInt32.toNat_ofNat', List.drop_drop]
      exact Nat.mod_eq_of_lt hlt
    · show (UInt16.ofNat (be16 frame (14 + Ipv4.headerLength (frame.drop 14) + 2))).toNat = be16 (frame.drop 14) _
      rw [UInt16.toNat_ofNat', Nat.mod_eq_of_lt (be16_lt _ _), be16_drop, Nat.add_assoc]
    · rw [isSyn_headersOf]
      simp only [getD_drop, Nat.add_assoc]

/-- The parser reads nothing beyond the end of the frame, and what it answers are the headers of
    the packet in it. -/
def ParsedRight (frame : List UInt8) : Prop :=
  (∀ off, parseIpv4Tcp frame ≠ .error (.outOfBounds off)) ∧ ∀ h, parseIpv4Tcp frame = .ok h → OwnHeaders frame h

/-- It does so for the frames it rejects, and for those whose packet is the start of a segment. -/
theorem parsed_headers_iff (frame : List UInt8) : ParsedRight frame ↔ (Accepted frame → StartsSegment frame) := by
  constructor
  · intro h hacc
    exact (ownHeaders_iff hacc).mp (h.2 _ (parseIpv4Tcp_of_accepted hacc))
  · intro h
    refine ⟨parse_in_bounds frame, fun headers hparse => ?_⟩
    by_cases hacc : Accepted frame
    · rw [parseIpv4Tcp_of_accepted hacc] at hparse
      obtain rfl := Except.ok.inj hparse
      exact (ownHeaders_iff hacc).mpr (h hacc)
    · rw [parseIpv4Tcp_of_not_accepted hacc] at hparse
      exact absurd hparse (by simp)

/-! ## A later fragment -/

def fragment (offset : UInt8) (payload : List UInt8) : List UInt8 :=
  List.replicate 12 0 ++ [8, 0] ++ [0x45, 0, 0, 40, 0, 1, 0, offset, 64, 6, 0, 0] ++ [10, 0, 0, 1] ++ [10, 0, 0, 2] ++
    payload

def request : List UInt8 :=
  [71, 69, 84, 32, 47, 97, 47, 98, 47, 99, 47, 100, 47, 114, 111, 46, 104, 116, 109, 108]

theorem the_first_fragment_is_read_right : ParsedRight (fragment 0 request) :=
  (parsed_headers_iff _).mpr fun _ => by decide

/-- In a later fragment with text in it, the third and fourth character are taken for the port
    and the fourteenth for the flags: the text goes through admission as a SYN. -/
theorem a_later_fragment_is_taken_for_a_syn :
    let taken : Headers := ⟨0x0100000a, 21536, tcpFlagSyn⟩
    ¬ParsedRight (fragment 3 request) ∧ taken.isSyn = true ∧
      ∀ c m val, c.frame = fragment 3 request → m.shared.policy = some val → val.actuate ≠ 0 →
        xdpMitigator c m = admitParsed c m val taken := by
  have hparse : parseIpv4Tcp (fragment 3 request) = .ok ⟨0x0100000a, 21536, tcpFlagSyn⟩ := by decide
  refine ⟨fun h => ?_, rfl, ?_⟩
  · have hacc : Accepted (fragment 3 request) := by decide
    exact absurd ((ownHeaders_iff hacc).mp (h.2 _ (parseIpv4Tcp_of_accepted hacc))) (by decide)
  · intro c m val hframe hpolicy hactuate
    simp only [xdpMitigator, hpolicy, hactuate, if_false, hframe, hparse]

end EliteTelemetry.Xdp
