/-
  EliteTelemetry.Skoop.Model — what a diagnosis is about: a flow's protocol and endpoints, and
  the packet that is traced for it (`skoop/model/model.go`, `skoop/model/packet.go`).
-/

import Mathlib.Data.List.Basic

namespace EliteTelemetry.Skoop

inductive Protocol where
  | tcp
  | udp
  | ipv4
  deriving DecidableEq, Repr

def Protocol.string : Protocol → String
  | .tcp => "tcp"
  | .udp => "udp"
  | .ipv4 => "ipv4"

structure Endpoint where
  ip : String
  port : UInt16
  deriving DecidableEq, Repr

abbrev IP := List UInt8

namespace IP

def to4 (ip : IP) : Option IP :=
  if ip.length = 4 then some ip
  else if ip.length = 16 ∧ ip.take 12 = List.replicate 10 0 ++ [255, 255] then some (ip.drop 12)
  else none

def isUnspecified (ip : IP) : Bool := ip.to4 == some [0, 0, 0, 0] || ip == List.replicate 16 0

def isMulticast (ip : IP) : Bool :=
  match ip.to4 with
  | some ip4 => ip4.head?.any (· &&& 0xf0 == 0xe0)
  | none => ip.length == 16 && ip.head? == some 0xff

end IP

structure Packet where
  src : IP
  sport : UInt16
  dst : IP
  dport : UInt16
  protocol : Protocol
  mark : UInt32
  deriving DecidableEq, Repr

end EliteTelemetry.Skoop
