/-
  EliteTelemetry.Lib.Packet — IPv4 packets and TCP segments in bytes.

  `Ipv4.decode` reads a packet off the beginning of some bytes. Its total length says where
  the packet ends: what comes after it (an Ethernet frame is filled up to its least length)
  is not of the packet, and what is missing before it was cut off. A packet with a fragment
  offset of 0 carries the beginning of what was sent, any other a later part of it.
-/

import Mathlib.Data.List.Basic

namespace EliteTelemetry.Lib.Packet

/-- A field of 16 bits in network order; bytes that are not there count as 0. -/
def be16 (bytes : List UInt8) (off : Nat) : Nat :=
  256 * (bytes.getD off 0).toNat + (bytes.getD (off + 1) 0).toNat

/-! ## IPv4 -/

structure Ipv4 where
  /-- Where the payload belongs, in units of 8 bytes. -/
  fragmentOffset : Nat
  protocol : UInt8
  source : List UInt8
  payload : List UInt8
  deriving DecidableEq, Repr

namespace Ipv4

def version (bytes : List UInt8) : Nat := (bytes.getD 0 0).toNat / 16

def headerLength (bytes : List UInt8) : Nat := 4 * ((bytes.getD 0 0).toNat % 16)

def totalLength (bytes : List UInt8) : Nat := be16 bytes 2

def offsetField (bytes : List UInt8) : Nat := be16 bytes 6 % 8192

def decode (bytes : List UInt8) : Option Ipv4 :=
  if 20 ≤ bytes.length ∧ version bytes = 4 ∧ 20 ≤ headerLength bytes ∧ headerLength bytes ≤ totalLength bytes then
    some
      { fragmentOffset := offsetField bytes, protocol := bytes.getD 9 0, source := (bytes.drop 12).take 4
        payload := (bytes.take (totalLength bytes)).drop (headerLength bytes) }
  else none

end Ipv4

/-! ## TCP -/

structure Tcp where
  destPort : Nat
  syn : Bool
  deriving DecidableEq, Repr

def Tcp.decode (bytes : List UInt8) : Option Tcp :=
  if 20 ≤ bytes.length then some { destPort := be16 bytes 2, syn := (bytes.getD 13 0).toNat.testBit 1 } else none

/-! ## Fields of a part -/

theorem getD_drop (bytes : List UInt8) (n i : Nat) : (bytes.drop n).getD i 0 = bytes.getD (n + i) 0 := by
  simp [List.getD_eq_getElem?_getD, List.getElem?_drop]

theorem getD_take {bytes : List UInt8} {n i : Nat} (h : i < n) : (bytes.take n).getD i 0 = bytes.getD i 0 := by
  simp [List.getD_eq_getElem?_getD, h]

theorem be16_drop (bytes : List UInt8) (n off : Nat) : be16 (bytes.drop n) off = be16 bytes (n + off) := by
  rw [be16, be16, getD_drop, getD_drop, Nat.add_assoc]

theorem be16_take {bytes : List UInt8} {n off : Nat} (h : off + 1 < n) : be16 (bytes.take n) off = be16 bytes off := by
  rw [be16, be16, getD_take (by omega), getD_take h]

theorem be16_lt (bytes : List UInt8) (off : Nat) : be16 bytes off < 65536 := by
  have hhi := (bytes.getD off 0).toNat_lt
  have hlo := (bytes.getD (off + 1) 0).toNat_lt
  unfold be16
  omega

theorem Tcp.decode_payload {bytes : List UInt8} {header : Nat} (hbytes : header + 20 ≤ bytes.length) (total : Nat) :
    Tcp.decode ((bytes.take total).drop header) =
      if header + 20 ≤ total then
        some { destPort := be16 bytes (header + 2), syn := (bytes.getD (header + 13) 0).toNat.testBit 1 }
      else none := by
  have hlen : ((bytes.take total).drop header).length = min total bytes.length - header := by simp
  unfold Tcp.decode
  by_cases htotal : header + 20 ≤ total
  · rw [if_pos (by omega), if_pos htotal, be16_drop, be16_take (by omega), getD_drop, getD_take (by omega)]
  · rw [if_neg (by omega), if_neg htotal]

end EliteTelemetry.Lib.Packet
